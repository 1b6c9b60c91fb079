import Tako.Governance.Pii
import Tako.Theory.LeftmostFirst

/-!
# Card numbers

The rule for credit cards looks for `\b(?:\d[ -]?){13,19}\b`, which prefers more digits, and takes
the digits of the whole match to `luhn_check`. So a text is cut into pieces of 13 to 19 digits, the
longest at the leftmost place first (`IsPiece`), and a card number is redacted exactly if the pieces
that it falls into pass the check as a whole (`card_redacted_iff`), or other rules match it. A card
number that stands alone is such a piece (`Card.Alone`), but digits beside it can become part of it.
-/

namespace Tako.Governance

open LeftmostFirst
open String (utf8Len)

/-! ## The expression -/

/-- `[ -]` -/
def isSep (c : Char) : Bool := c = ' ' || c = '-'

/-- The Unicode classes `\d` and `\w`. -/
structure Classes where
  digit : Char → Bool
  word : Char → Bool
  digit_of_isDigit : ∀ c, c.isDigit = true → digit c = true
  word_of_digit : ∀ c, digit c = true → word c = true
  not_word_of_isSep : ∀ c, isSep c = true → word c = false

variable (u : Classes)

/-- `\b` -/
def Classes.boundary (b s : List Char) : Bool := b.getLast?.any u.word != s.head?.any u.word

/-- `\d[ -]?` -/
def digitSep : Expr Char := .cat (.sat u.digit) (.opt (.sat isSep))

def creditCardExpr : Expr Char :=
  .cat (.look u.boundary) (.cat (.rep (digitSep u) 13 6) (.look u.boundary))

theorem ends_creditCardExpr (b s : List Char) : ends (creditCardExpr u) b s =
    if u.boundary b s then
      (times (ends (digitSep u)) 13 6 b s).filter fun e => u.boundary (b ++ e.1) e.2
    else [] := by
  change andThen (ends (.look u.boundary)) (andThen (times (ends (digitSep u)) 13 6)
    (ends (.look u.boundary))) b s = _
  rw [look_andThen, andThen_look]

variable {u}

theorem Classes.digit_of_isSep (h : isSep c = true) : u.digit c = false := by
  rw [Bool.eq_false_iff]
  exact fun hd => Bool.false_ne_true ((u.not_word_of_isSep c h).symm.trans (u.word_of_digit c hd))

/-! ## One digit -/

theorem ends_digitSep_of_sep (hd : u.digit d = true) (hc : isSep c = true) (b s : List Char) :
    ends (digitSep u) b (d :: c :: s) = [([d, c], s), ([d], c :: s)] := by
  simp [digitSep, ends, andThen, satEnds, hd, hc]

theorem ends_digitSep (hd : u.digit d = true) {s : List Char}
    (hs : ∀ c ∈ s.head?, isSep c = false) (b : List Char) :
    ends (digitSep u) b (d :: s) = [([d], s)] := by
  cases s with
  | nil => simp [digitSep, ends, andThen, satEnds, hd]
  | cons c s => simp [digitSep, ends, andThen, satEnds, hd, hs c rfl]

theorem ends_digitSep_of_not_digit {s : List Char} (hs : ∀ c ∈ s.head?, u.digit c = false)
    (b : List Char) : ends (digitSep u) b s = [] := by
  cases s with
  | nil => rfl
  | cons c s => simp [digitSep, ends, andThen, satEnds, hs c rfl]

/-- Where a digit stands, the ways to take it with its separator or without. -/
theorem digitSep_cases (u : Classes) (b s : List Char) : ends (digitSep u) b s = [] ∨
    (∃ d s', s = d :: s' ∧ u.digit d = true ∧ ends (digitSep u) b s = [([d], s')]) ∨
      ∃ d c s', s = d :: c :: s' ∧ u.digit d = true ∧ isSep c = true ∧
        ends (digitSep u) b s = [([d, c], s'), ([d], c :: s')] := by
  cases s with
  | nil => exact .inl rfl
  | cons d s =>
    cases hd : u.digit d with
    | false => exact .inl (ends_digitSep_of_not_digit (by simpa using hd) b)
    | true =>
      by_cases hs : ∀ c ∈ s.head?, isSep c = false
      · exact .inr (.inl ⟨d, s, rfl, hd, ends_digitSep hd hs b⟩)
      · cases s with
        | nil => exact absurd (fun c hc => by cases hc) hs
        | cons c s =>
          have hc : isSep c = true := by simpa using hs
          exact .inr (.inr ⟨d, c, s, rfl, hd, hc, ends_digitSep_of_sep hd hc b s⟩)

theorem mem_ends_digitSep {b s : List Char} (he : e ∈ ends (digitSep u) b s) :
    ∃ d, u.digit d = true ∧ (e.1 = [d] ∨ ∃ c, isSep c = true ∧ e.1 = [d, c]) := by
  obtain hnil | ⟨d, s', -, hd, hone⟩ | ⟨d, c, s', -, hd, hc, htwo⟩ := digitSep_cases u b s
  · rw [hnil] at he
    cases he
  · rw [hone] at he
    obtain rfl := List.mem_singleton.1 he
    exact ⟨d, hd, .inl rfl⟩
  · rw [htwo] at he
    obtain rfl | he := List.mem_cons.1 he
    · exact ⟨d, hd, .inr ⟨c, hc, rfl⟩⟩
    · obtain rfl := List.mem_singleton.1 he
      exact ⟨d, hd, .inl rfl⟩

/-- A digit may be taken without what is behind it. -/
theorem digit_mem_ends (hd : u.digit d = true) (b s : List Char) :
    ([d], s) ∈ ends (digitSep u) b (d :: s) := by
  cases s with
  | nil =>
    rw [ends_digitSep hd (fun c hc => by cases hc)]
    exact List.mem_singleton_self _
  | cons c s =>
    cases hc : isSep c with
    | true =>
      rw [ends_digitSep_of_sep hd hc]
      exact List.mem_cons_of_mem _ (List.mem_singleton_self _)
    | false =>
      rw [ends_digitSep hd (by simpa using hc)]
      exact List.mem_singleton_self _

/-- Behind a separator no more digits are taken. -/
theorem times_digitSep_of_sep (hc : isSep c = true) (least more : Nat) (b s : List Char) :
    ∀ e ∈ times (ends (digitSep u)) least more b (c :: s), e = ([], c :: s) := by
  have hstuck : ends (digitSep u) b (c :: s) = [] :=
    ends_digitSep_of_not_digit (fun d hd => Option.some.inj hd ▸ Classes.digit_of_isSep hc) b
  intro e he
  cases least with
  | zero =>
    rw [times_zero_of_stuck hstuck] at he
    exact List.mem_singleton.1 he
  | succ least =>
    obtain ⟨e₁, h₁, -⟩ := mem_andThen.1 he
    rw [hstuck] at h₁
    cases h₁

/-! ## Chains of digits -/

/-- `n` digits, each with a separator or nothing behind it. -/
inductive Chain (u : Classes) : List Char → Nat → Prop where
  | nil : Chain u [] 0
  | digit : u.digit d = true → Chain u t n → Chain u (d :: t) (n + 1)
  | sep : u.digit d = true → isSep c = true → Chain u t n → Chain u (d :: c :: t) (n + 1)

theorem chain_of_mem_times (least more : Nat) {b s : List Char}
    (he : e ∈ times (ends (digitSep u)) least more b s) :
    ∃ n, least ≤ n ∧ n ≤ least + more ∧ Chain u e.1 n := by
  have hunit (least more : Nat) (htimes : ∀ b s, ∀ e ∈ times (ends (digitSep u)) least more b s,
      ∃ n, least ≤ n ∧ n ≤ least + more ∧ Chain u e.1 n) (b s : List Char) :
      ∀ e ∈ andThen (ends (digitSep u)) (times (ends (digitSep u)) least more) b s,
        ∃ n, least + 1 ≤ n ∧ n ≤ least + more + 1 ∧ Chain u e.1 n := by
    intro e he
    obtain ⟨e₁, h₁, e₂, h₂, rfl⟩ := mem_andThen.1 he
    obtain ⟨n, hl, hm, hn⟩ := htimes _ _ e₂ h₂
    refine ⟨n + 1, by omega, by omega, ?_⟩
    obtain ⟨d, hd, h | ⟨c, hc, h⟩⟩ := mem_ends_digitSep h₁
    · rw [h]
      exact .digit hd hn
    · rw [h]
      exact .sep hd hc hn
  have htimes (least more : Nat) : ∀ b s, ∀ e ∈ times (ends (digitSep u)) least more b s,
      ∃ n, least ≤ n ∧ n ≤ least + more ∧ Chain u e.1 n := by
    induction least with
    | zero =>
      induction more with
      | zero =>
        intro b s e he
        obtain rfl := List.mem_singleton.1 he
        exact ⟨0, Nat.le_refl _, Nat.le_refl _, .nil⟩
      | succ more ih =>
        intro b s e he
        obtain he | he := List.mem_append.1 he
        · obtain ⟨n, -, hm, hn⟩ := hunit 0 more ih b s e he
          exact ⟨n, Nat.zero_le _, by omega, hn⟩
        · obtain rfl := List.mem_singleton.1 he
          exact ⟨0, Nat.le_refl _, Nat.zero_le _, .nil⟩
    | succ least ih =>
      intro b s e he
      obtain ⟨n, hl, hm, hn⟩ := hunit least more ih b s e he
      exact ⟨n, hl, by omega, hn⟩
  exact htimes least more b s e he

/-- All chains of so many digits are tried. -/
theorem Chain.mem_times (h : Chain u t n) (least more : Nat) (hl : least ≤ n)
    (hm : n ≤ least + more) (b s : List Char) :
    (t, s) ∈ times (ends (digitSep u)) least more b (t ++ s) := by
  induction h generalizing least more b with
  | nil =>
    obtain rfl : least = 0 := by omega
    change ([], s) ∈ upTo (ends (digitSep u)) more b s
    cases more with
    | zero => exact List.mem_singleton_self _
    | succ more => exact List.mem_append_right _ (List.mem_singleton_self _)
  | @digit d t n hd ht ih =>
    obtain ⟨least', more', hleast, hsum, htimes⟩ := times_eq (ends (digitSep u))
      (show 0 < least + more by omega)
    obtain ⟨rest, hrest⟩ := htimes b (d :: t ++ s)
    rw [hrest]
    refine List.mem_append_left _ (mem_andThen.2 ⟨([d], t ++ s), ?_, (t, s), ?_, rfl⟩)
    · exact digit_mem_ends hd b (t ++ s)
    · exact ih least' more' (by omega) (by omega) _
  | @sep d c t n hd hc ht ih =>
    obtain ⟨least', more', hleast, hsum, htimes⟩ := times_eq (ends (digitSep u))
      (show 0 < least + more by omega)
    obtain ⟨rest, hrest⟩ := htimes b (d :: c :: t ++ s)
    rw [hrest]
    refine List.mem_append_left _ (mem_andThen.2 ⟨([d, c], t ++ s), ?_, (t, s), ?_, rfl⟩)
    · rw [List.cons_append, List.cons_append, ends_digitSep_of_sep hd hc]
      exact List.mem_cons_self
    · exact ih least' more' (by omega) (by omega) _

/-- The ways to take digits come the longest first. -/
theorem times_sorted (least more : Nat) (b s : List Char) :
    (times (ends (digitSep u)) least more b s).Pairwise fun e e' => e'.1.length < e.1.length := by
  have hunit (least more : Nat) (htimes : ∀ b s,
      (times (ends (digitSep u)) least more b s).Pairwise fun e e' => e'.1.length < e.1.length)
      (b s : List Char) : (andThen (ends (digitSep u)) (times (ends (digitSep u)) least more) b
        s).Pairwise fun e e' => e'.1.length < e.1.length := by
    have hmap (m : List Char) (b s : List Char) :
        ((times (ends (digitSep u)) least more b s).map fun e => (m ++ e.1, e.2)).Pairwise
          fun e e' => e'.1.length < e.1.length := by
      rw [List.pairwise_map]
      exact (htimes b s).imp fun hlt => by simpa using hlt
    unfold andThen
    obtain hnil | ⟨d, s', -, -, hone⟩ | ⟨d, c, s', -, -, hc, htwo⟩ := digitSep_cases u b s
    · rw [hnil]
      exact .nil
    · rw [hone, List.flatMap_singleton]
      exact hmap _ _ _
    · rw [htwo, List.flatMap_cons, List.flatMap_singleton, List.pairwise_append]
      refine ⟨hmap _ _ _, hmap _ _ _, fun e he e' he' => ?_⟩
      obtain ⟨e₁, -, rfl⟩ := List.mem_map.1 he
      obtain ⟨e₂, h₂, rfl⟩ := List.mem_map.1 he'
      rw [times_digitSep_of_sep hc _ _ _ _ e₂ h₂]
      simp
  induction least generalizing b s with
  | zero =>
    change (upTo (ends (digitSep u)) more b s).Pairwise _
    induction more generalizing b s with
    | zero => exact List.pairwise_singleton _ _
    | succ more ih =>
      refine List.pairwise_append.2 ⟨hunit 0 more ih b s, List.pairwise_singleton _ _, ?_⟩
      intro e he e' he'
      obtain rfl := List.mem_singleton.1 he'
      obtain ⟨e₁, h₁, e₂, -, rfl⟩ := mem_andThen.1 he
      obtain ⟨d, -, h | ⟨c, -, h⟩⟩ := mem_ends_digitSep h₁ <;> simp [h]
  | succ least ih => exact hunit least more ih b s

/-- Before a digit inside a chain there is a digit, or a digit with a separator. -/
theorem Chain.split (h : Chain u m n) {v w : List Char} (hm : m = v ++ d :: w)
    (hd : u.digit d = true) : v = [] ∨ (∃ v' e, v = v' ++ [e] ∧ u.digit e = true) ∨
      ∃ v' e c, v = v' ++ [e, c] ∧ u.digit e = true ∧ isSep c = true := by
  induction h generalizing v with
  | nil => exact absurd (congrArg List.length hm) (by simp)
  | @digit e t n he _ ih =>
    cases v with
    | nil => exact .inl rfl
    | cons e' v =>
      obtain ⟨rfl, rfl⟩ := List.cons.inj hm
      refine .inr ?_
      obtain rfl | ⟨v', f, rfl, hf⟩ | ⟨v', f, c, rfl, hf⟩ := ih rfl
      · exact .inl ⟨[], e, rfl, he⟩
      · exact .inl ⟨e :: v', f, rfl, hf⟩
      · exact .inr ⟨e :: v', f, c, rfl, hf⟩
  | @sep e c t n he hc _ ih =>
    cases v with
    | nil => exact .inl rfl
    | cons e' v =>
      obtain ⟨rfl, htail⟩ := List.cons.inj hm
      refine .inr ?_
      cases v with
      | nil =>
        obtain ⟨rfl, -⟩ := List.cons.inj htail
        exact absurd hd (Bool.eq_false_iff.1 (Classes.digit_of_isSep hc))
      | cons c' v =>
        obtain ⟨rfl, rfl⟩ := List.cons.inj htail
        obtain rfl | ⟨v', f, rfl, hf⟩ | ⟨v', f, c', rfl, hf⟩ := ih rfl
        · exact .inr ⟨[], e, c, rfl, he, hc⟩
        · exact .inl ⟨e :: c :: v', f, rfl, hf⟩
        · exact .inr ⟨e :: c :: v', f, c', rfl, hf⟩

/-! ## The rule -/

theorem nonEmpty_creditCardExpr (u : Classes) : NonEmpty (creditCardExpr u) := by
  intro b s e he
  rw [ends_creditCardExpr] at he
  split at he
  · have hmem := (List.mem_filter.1 he).1
    obtain ⟨e₁, h₁, e₂, -, rfl⟩ := mem_andThen.1 hmem
    obtain ⟨d, -, h | ⟨c, -, h⟩⟩ := mem_ends_digitSep h₁ <;> rw [h] <;> exact List.cons_ne_nil _ _
  · cases he

/-- Between the edges of words, 13 to 19 digits with a separator or nothing behind each. -/
structure Fits (u : Classes) (b t s : List Char) : Prop where
  digits : ∃ n, 13 ≤ n ∧ n ≤ 19 ∧ Chain u t n
  left : u.boundary b (t ++ s) = true
  right : u.boundary (b ++ t) s = true

theorem longestFirst_creditCardExpr (u : Classes) : LongestFirst (creditCardExpr u) (Fits u) where
  mem b s e := by
    rw [ends_creditCardExpr]
    constructor
    · intro he
      split at he
      case isTrue hleft =>
        obtain ⟨he, hright⟩ := List.mem_filter.1 he
        have hsplit : e.1 ++ e.2 = s := by
          have hrep : e ∈ ends (.rep (digitSep u) 13 6) b s := he
          exact splits_ends _ _ _ e hrep
        exact ⟨hsplit, chain_of_mem_times 13 6 he, hsplit.symm ▸ hleft, hright⟩
      case isFalse => cases he
    · rintro ⟨rfl, ⟨n, hl, hm, hchain⟩, hleft, hright⟩
      rw [if_pos hleft]
      exact List.mem_filter.2 ⟨hchain.mem_times 13 6 hl hm b e.2, hright⟩
  sorted b s := by
    rw [ends_creditCardExpr]
    split
    · exact ((times_sorted 13 6 b s).imp Nat.le_of_lt).filter _
    · exact .nil

def Match.ofParts {input : List Char} (t : List Char × List Char × List Char)
    (h : t.1 ++ t.2.1 ++ t.2.2 = input ∧ t.2.1 ≠ []) : Match input :=
  ⟨t.1, t.2.1, t.2.2, h.1, h.2⟩

/-- The matches of an expression that matches no empty text. -/
def Pattern.ofExpr (r : Expr Char) (hr : NonEmpty r) : Pattern where
  findIter input := (LeftmostFirst.findIter r input).pmap Match.ofParts
    fun t ht => by
      obtain ⟨hmem, htext, -⟩ := mem_ends_of_mem_findFrom ht
      exact ⟨(List.append_assoc _ _ _).trans htext, hr _ _ _ hmem⟩
  ordered input := by
    rw [List.pairwise_pmap]
    refine (pairwise_findFrom _ _ _).imp fun hprefix _ _ => ?_
    change utf8Len _ + utf8Len _ ≤ utf8Len _
    rw [← String.utf8Len_append]
    exact String.utf8Len_le_of_prefix hprefix

def creditCard (u : Classes) : Pattern := .ofExpr (creditCardExpr u) (nonEmpty_creditCardExpr u)

/-- The text is cut into pieces from the left: the next piece is the longest that fits at the
leftmost place where one does, and the cut goes on behind it. -/
def IsPiece (u : Classes) {input : List Char} (m : Match input) : Prop :=
  Found (Fits u) input (m.before, m.text, m.after)

theorem mem_findIter_creditCard {input : List Char} {m : Match input} :
    m ∈ (creditCard u).findIter input ↔ IsPiece u m := by
  refine Iff.trans ?_ ((longestFirst_creditCardExpr u).mem_findIter_iff (nonEmpty_creditCardExpr u))
  constructor
  · intro hm
    obtain ⟨t, ht, rfl⟩ := List.mem_pmap.1 hm
    exact ht
  · intro hm
    exact List.mem_pmap.2 ⟨_, hm, rfl⟩

/-- The rules with that expression, and any others. -/
def withCreditCard (u : Classes) (re : PiiKind → Pattern) (kind : PiiKind) : Pattern :=
  if kind = .creditCard then creditCard u else re kind

/-! ## Card numbers -/

/-- `n` digits with a separator or nothing between them. -/
inductive Written : List Char → Nat → Prop where
  | last {d : Char} : d.isDigit = true → Written [d] 1
  | digit {d : Char} {t : List Char} {n : Nat} : d.isDigit = true → Written t n →
    Written (d :: t) (n + 1)
  | sep {d c : Char} {t : List Char} {n : Nat} : d.isDigit = true → isSep c = true →
    Written t n → Written (d :: c :: t) (n + 1)

/-- A valid card number in a text, between other characters than digits. -/
structure Card (u : Classes) (input : List Char) extends Match input where
  digits : Nat
  written : Written text digits
  least : 13 ≤ digits
  most : digits ≤ 19
  valid : luhnCheck text = true
  left : ∀ c ∈ before.getLast?, u.digit c = false
  right : ∀ c ∈ after.head?, u.digit c = false

/-- No word stands before, nor a digit with a separator. -/
structure AloneBefore (u : Classes) (b : List Char) : Prop where
  word : ∀ c ∈ b.getLast?, u.word c = false
  digit : ∀ b' d c, b = b' ++ [d, c] → isSep c = true → u.digit d = false

/-- No word stands behind, nor a digit behind a separator. -/
structure AloneAfter (u : Classes) (s : List Char) : Prop where
  word : ∀ c ∈ s.head?, u.word c = false
  digit : ∀ c s', s = c :: s' → isSep c = true → ∀ d ∈ s'.head?, u.digit d = false

variable {input : List Char}

structure Card.Alone (card : Card u input) : Prop where
  before : AloneBefore u card.before
  after : AloneAfter u card.after

theorem Written.pos (h : Written t n) : 0 < n := by
  cases h <;> exact Nat.succ_pos _

/-- A card number begins with a digit. -/
theorem Written.exists_cons (h : Written t n) : ∃ d t', t = d :: t' ∧ d.isDigit = true := by
  cases h with
  | last hd | digit hd _ | sep hd _ _ => exact ⟨_, _, rfl, hd⟩

theorem Written.head_append (h : Written t n) (s : List Char) :
    ∀ c ∈ (t ++ s).head?, c.isDigit = true := by
  obtain ⟨d, t', rfl, hd⟩ := h.exists_cons
  intro c hc
  obtain rfl := Option.some.inj hc
  exact hd

theorem not_isSep_of_isDigit (h : c.isDigit = true) : isSep c = false := by
  rw [Bool.eq_false_iff]
  intro hsep
  simp only [isSep, Bool.or_eq_true, decide_eq_true_eq] at hsep
  obtain rfl | rfl := hsep <;> exact absurd h (by decide)

theorem AloneAfter.not_digit {s : List Char} (h : AloneAfter u s) :
    ∀ c ∈ s.head?, u.digit c = false := by
  intro c hc
  rw [Bool.eq_false_iff]
  exact fun hd => Bool.false_ne_true ((h.word c hc).symm.trans (u.word_of_digit c hd))

/-- There is a boundary between a digit and what is no word. -/
theorem boundary_digit {s : List Char} (hd : u.digit d = true)
    (hs : ∀ c ∈ s.head?, u.word c = false) (b : List Char) :
    u.boundary (b ++ [d]) s = true := by
  cases s with
  | nil => simp [Classes.boundary, u.word_of_digit d hd]
  | cons c s => simp [Classes.boundary, u.word_of_digit d hd, hs c rfl]

/-- Of the ways to match a card number that stands alone, the first ends with it, or with the
separator behind it. -/
theorem Written.filter_times {after : List Char} (h : Written t n) (ha : AloneAfter u after)
    (least more : Nat) (hl : least ≤ n) (hm : n ≤ least + more) (b : List Char) :
    ∃ x rest tail, x ++ rest = after ∧ (x = [] ∨ ∃ c, isSep c = true ∧ x = [c]) ∧
      ((times (ends (digitSep u)) least more b (t ++ after)).filter fun e =>
        u.boundary (b ++ e.1) e.2) = (t ++ x, rest) :: tail := by
  induction h generalizing least more b with
  | @last d hd =>
    have hdigit := u.digit_of_isDigit d hd
    obtain ⟨least', more', hl', hsum, heq⟩ := times_eq (ends (digitSep u))
      (Nat.lt_of_lt_of_le Nat.one_pos hm)
    obtain rfl : least' = 0 := by omega
    obtain ⟨rest, hrest⟩ := heq b ([d] ++ after)
    have hstuck (b s : List Char) (hs : ∀ c ∈ s.head?, u.digit c = false) :
        times (ends (digitSep u)) 0 more' b s = [([], s)] :=
      times_zero_of_stuck (ends_digitSep_of_not_digit hs b) more'
    have hend : u.boundary (b ++ [d]) after = true := boundary_digit hdigit ha.word b
    rw [hrest, List.filter_append]
    by_cases hsep : ∀ c ∈ after.head?, isSep c = false
    · have heq : andThen (ends (digitSep u)) (times (ends (digitSep u)) 0 more') b
          ([d] ++ after) = [([d], after)] := by
        unfold andThen
        rw [List.singleton_append, ends_digitSep hdigit hsep, List.flatMap_singleton,
          hstuck _ _ ha.not_digit]
        rfl
      rw [heq, List.filter_cons, if_pos hend]
      exact ⟨[], after, _, rfl, .inl rfl, rfl⟩
    · obtain ⟨c, s, rfl, hc⟩ : ∃ c s, after = c :: s ∧ isSep c = true := by
        cases after with
        | nil => exact absurd nofun hsep
        | cons c s => exact ⟨c, s, rfl, by simpa using hsep⟩
      -- The separator is taken if a word begins behind it.
      have heq : andThen (ends (digitSep u)) (times (ends (digitSep u)) 0 more') b
          ([d] ++ c :: s) = [([d, c], s), ([d], c :: s)] := by
        unfold andThen
        rw [List.singleton_append, ends_digitSep_of_sep hdigit hc, List.flatMap_cons,
          List.flatMap_singleton, hstuck _ _ (ha.digit c s rfl hc), hstuck _ _ ha.not_digit]
        rfl
      rw [heq, List.filter_cons]
      split
      · exact ⟨[c], s, _, rfl, .inr ⟨c, hc, rfl⟩, rfl⟩
      · rw [List.filter_cons, if_pos hend]
        exact ⟨[], c :: s, _, rfl, .inl rfl, rfl⟩
  | @digit d t n hd ht ih =>
    have hunit : ends (digitSep u) b (d :: (t ++ after)) = [([d], t ++ after)] :=
      ends_digitSep (u.digit_of_isDigit d hd)
        (fun c hc => not_isSep_of_isDigit (ht.head_append after c hc)) b
    obtain ⟨least', more', hl', hsum, hfilter⟩ :=
      filter_times_of_first u.boundary (Nat.lt_of_lt_of_le (Nat.succ_pos _) hm) hunit
    obtain ⟨x, rest, tail, hx, hsep, hrest⟩ := ih least' more' (by omega) (by omega) (b ++ [d])
    obtain ⟨tail', htail⟩ := hfilter _ _ hrest
    exact ⟨x, rest, tail', hx, hsep, htail⟩
  | @sep d c t n hd hc ht ih =>
    have hfirst := ends_digitSep_of_sep (u.digit_of_isDigit d hd) hc b (t ++ after)
    obtain ⟨least', more', hl', hsum, hfilter⟩ :=
      filter_times_of_first u.boundary (Nat.lt_of_lt_of_le (Nat.succ_pos _) hm) hfirst
    obtain ⟨x, rest, tail, hx, hsep, hrest⟩ := ih least' more' (by omega) (by omega) (b ++ [d, c])
    obtain ⟨tail', htail⟩ := hfilter _ _ hrest
    exact ⟨x, rest, tail', hx, hsep, htail⟩

/-! ## What is found -/

theorem luhnCheck_append_sep (t : List Char) (hc : isSep c = true) :
    luhnCheck (t ++ [c]) = luhnCheck t := by
  have hnone : toDigit c = none := by
    refine if_neg fun hd => ?_
    rw [not_isSep_of_isDigit hd] at hc
    cases hc
  have hfilter : (t ++ [c]).filterMap toDigit = t.filterMap toDigit := by
    rw [List.filterMap_append, List.filterMap_cons_none hnone, List.filterMap_nil,
      List.append_nil]
  unfold luhnCheck
  rw [hfilter]

/-- The match that begins with a card number. -/
theorem Card.exists_first (card : Card u input) (h : card.Alone) :
    ∃ x rest, x ++ rest = card.after ∧ (x = [] ∨ ∃ c, isSep c = true ∧ x = [c]) ∧
      (ends (creditCardExpr u) card.before (card.text ++ card.after)).head? =
        some (card.text ++ x, rest) := by
  obtain ⟨x, rest, tail, hx, hsep, hfilter⟩ :=
    card.written.filter_times h.after 13 6 card.least card.most card.before
  refine ⟨x, rest, hx, hsep, ?_⟩
  have hboundary : u.boundary card.before (card.text ++ card.after) = true := by
    obtain ⟨d, t, htext, hd⟩ := card.written.exists_cons
    have hword : u.word d = true := u.word_of_digit d (u.digit_of_isDigit d hd)
    cases hlast : card.before.getLast? with
    | none => simp [Classes.boundary, htext, hword, hlast]
    | some c => simp [Classes.boundary, htext, hword, hlast, h.before.word c hlast]
  rw [ends_creditCardExpr, if_pos hboundary, hfilter]
  rfl

/-- No match from the left runs into a card number that stands alone. -/
theorem Card.length_le (card : Card u input) (h : card.Alone) {b s : List Char}
    (htext : b ++ s = card.before ++ (card.text ++ card.after))
    (hlt : b.length < card.before.length) {e : List Char × List Char}
    (he : e ∈ ends (creditCardExpr u) b s) : (b ++ e.1).length ≤ card.before.length := by
  by_contra hgt
  obtain ⟨n, -, -, hchain⟩ := (((longestFirst_creditCardExpr u).mem b s e).1 he).2.digits
  have hsplit : b ++ e.1 ++ e.2 = card.before ++ (card.text ++ card.after) := by
    rw [List.append_assoc, splits_ends _ _ _ e he, htext]
  obtain ⟨v, hv⟩ : b <+: card.before := List.prefix_of_prefix_length_le
    ⟨s, htext⟩ (List.prefix_append _ _) (Nat.le_of_lt hlt)
  obtain ⟨w, hw⟩ : card.before <+: b ++ e.1 := List.prefix_of_prefix_length_le
    (List.prefix_append _ _) ⟨e.2, hsplit⟩ (Nat.le_of_lt (Nat.not_le.1 hgt))
  have hmatch : e.1 = v ++ w := by
    rw [← hv, List.append_assoc] at hw
    exact (List.append_cancel_left hw).symm
  have hcard : w ++ e.2 = card.text ++ card.after := by
    rw [← hw, List.append_assoc] at hsplit
    exact List.append_cancel_left hsplit
  cases w with
  | nil =>
    rw [← hw, List.append_nil] at hgt
    exact hgt (Nat.le_refl _)
  | cons d w =>
    have hd : u.digit d = true :=
      u.digit_of_isDigit d (card.written.head_append card.after d (hcard ▸ rfl))
    obtain rfl | ⟨v', f, rfl, hf⟩ | ⟨v', f, c, rfl, hf, hc⟩ := hchain.split hmatch hd
    · rw [← hv, List.append_nil] at hlt
      exact Nat.lt_irrefl _ hlt
    · have hword := h.before.word f (by rw [← hv, ← List.append_assoc]; exact List.getLast?_concat)
      exact absurd (u.word_of_digit f hf) (Bool.eq_false_iff.1 hword)
    · have hdigit := h.before.digit (b ++ v') f c (by rw [← hv, List.append_assoc]) hc
      exact absurd hf (Bool.eq_false_iff.1 hdigit)

/-- The bytes of a card number. -/
def Card.Covers (card : Card u input) (x : Nat) : Prop := card.span.Covers x

/-- A byte is in a piece whose digits pass the check. -/
def InPiece (u : Classes) (input : List Char) (x : Nat) : Prop :=
  ∃ m : Match input, IsPiece u m ∧ luhnCheck m.text = true ∧ m.span.Covers x

/-- A byte is in a match of another rule. -/
def InOther (re : PiiKind → Pattern) (input : List Char) (x : Nat) : Prop :=
  ∃ kind, kind ≠ .creditCard ∧ ∃ m ∈ (re kind).findIter input, m.span.Covers x

/-- The pieces whose digits pass the check, and the matches of the other rules. -/
def sensitive (u : Classes) (re : PiiKind → Pattern) (input : List Char) : Set Span :=
  {s | (∃ m : Match input, IsPiece u m ∧ luhnCheck m.text = true ∧ m.span = s) ∨
    ∃ kind, kind ≠ .creditCard ∧ ∃ m ∈ (re kind).findIter input, m.span = s}

/-- A card number that stands alone is in a piece that passes the check. -/
theorem Card.inPiece (card : Card u input) (h : card.Alone) (hx : card.Covers x) :
    InPiece u input x := by
  obtain ⟨y, rest, hrest, hy, hfirst⟩ := card.exists_first h
  have hfound : (card.before, card.text ++ y, rest) ∈
      LeftmostFirst.findIter (creditCardExpr u) input := by
    refine mem_findFrom (nonEmpty_creditCardExpr u) hfirst
      (fun b s htext hlt e he => card.length_le h htext hlt he) ?_ (Nat.zero_le _)
      (Nat.lt_succ_self _)
    rw [← List.append_assoc, card.split]
    rfl
  refine ⟨_, mem_findIter_creditCard.1 (List.mem_pmap.2 ⟨_, hfound, rfl⟩), ?_, ?_⟩
  · change luhnCheck (card.text ++ y) = true
    obtain rfl | ⟨c, hc, rfl⟩ := hy
    · rw [List.append_nil, card.valid]
    · rw [luhnCheck_append_sep _ hc, card.valid]
  · refine ⟨hx.1, Nat.lt_of_lt_of_le hx.2 ?_⟩
    change _ ≤ utf8Len card.before + utf8Len (card.text ++ y)
    rw [String.utf8Len_append, ← Nat.add_assoc]
    exact Nat.le_add_right _ _

/-! ## What is redacted -/

variable {re : PiiKind → Pattern}

/-- The validators of the rules. -/
def validator : PiiKind → Option (List Char → Bool)
  | .creditCard => some luhnCheck
  | _ => none

theorem mem_compiledRules {rule : CompiledRule} :
    rule ∈ compiledRules re ↔ ∃ kind, rule = ⟨kind, re kind, validator kind⟩ := by
  constructor
  · intro h
    simp only [compiledRules, List.mem_cons, List.not_mem_nil, or_false] at h
    obtain rfl | rfl | rfl | rfl | rfl | rfl | rfl := h <;> exact ⟨_, rfl⟩
  · rintro ⟨kind, rfl⟩
    cases kind <;> simp [compiledRules, validator]

/-- The validated matches are the pieces that pass the check, and all matches of other rules. -/
theorem matched_withCreditCard (u : Classes) (re : PiiKind → Pattern) (input : List Char) :
    matched (withCreditCard u re) input = sensitive u re input := by
  ext s
  constructor
  · rintro ⟨_, hrule, m, hm, hv, rfl⟩
    obtain ⟨kind, rfl⟩ := mem_compiledRules.1 hrule
    by_cases hkind : kind = .creditCard
    · subst hkind
      exact .inl ⟨m, mem_findIter_creditCard.1 hm, hv, rfl⟩
    · have hre : withCreditCard u re kind = re kind := if_neg hkind
      refine .inr ⟨kind, hkind, ?_⟩
      rw [← hre]
      exact ⟨m, hm, rfl⟩
  · rintro (⟨m, hm, hv, rfl⟩ | ⟨kind, hkind, m, hm, rfl⟩)
    · exact ⟨_, mem_compiledRules.2 ⟨.creditCard, rfl⟩, m, mem_findIter_creditCard.2 hm, hv, rfl⟩
    · have hre : withCreditCard u re kind = re kind := if_neg hkind
      rw [← hre] at hm
      refine ⟨_, mem_compiledRules.2 ⟨kind, rfl⟩, m, hm, ?_, rfl⟩
      cases kind <;> first | rfl | exact absurd rfl hkind

theorem exists_sensitive_iff (x : Nat) :
    (∃ s ∈ sensitive u re input, s.Covers x) ↔ InPiece u input x ∨ InOther re input x := by
  constructor
  · rintro ⟨_, ⟨m, hm, hv, rfl⟩ | ⟨kind, hkind, m, hm, rfl⟩, hx⟩
    · exact .inl ⟨m, hm, hv, hx⟩
    · exact .inr ⟨kind, hkind, m, hm, hx⟩
  · rintro (⟨m, hm, hv, hx⟩ | ⟨kind, hkind, m, hm, hx⟩)
    · exact ⟨m.span, .inl ⟨m, hm, hv, rfl⟩, hx⟩
    · exact ⟨m.span, .inr ⟨kind, hkind, m, hm, rfl⟩, hx⟩

/-- A hit covers each byte of the card number. -/
def Card.Redacted (re : PiiKind → Pattern) (card : Card u input) : Prop :=
  ∀ x, card.Covers x → ∃ h ∈ detect (withCreditCard u re) input, h.Covers x

/-- A byte is redacted exactly if it is in a piece that passes the check or in a match of another
rule, and is not clipped by what begins further left. -/
theorem redacted_iff (u : Classes) (re : PiiKind → Pattern) (input : List Char) (x : Nat) :
    (∃ h ∈ detect (withCreditCard u re) input, h.Covers x) ↔
      (InPiece u input x ∨ InOther re input x) ∧ ¬Span.Clipped (sensitive u re input) x := by
  rw [covered_detect, (greedy_detect _ _).covered_iff_not_clipped, matched_withCreditCard,
    exists_sensitive_iff]

/-- A card number that stands alone is redacted unless a match of another rule clips it. -/
theorem Card.redacted_of_alone (re : PiiKind → Pattern) (card : Card u input) (h : card.Alone)
    (hclipped : ∀ x, card.Covers x → ¬Span.Clipped (sensitive u re input) x) : card.Redacted re :=
  fun x hx => (redacted_iff u re input x).2 ⟨.inl (card.inPiece h hx), hclipped x hx⟩

/-- A card number is redacted exactly if each byte of it is in a piece that passes the check as a
whole, or in a match of another rule, and is not clipped. -/
theorem card_redacted_iff (re : PiiKind → Pattern) (card : Card u input) :
    card.Redacted re ↔ ∀ x, card.Covers x →
      (InPiece u input x ∨ InOther re input x) ∧ ¬Span.Clipped (sensitive u re input) x :=
  forall_congr' fun x => imp_congr_right fun _ => redacted_iff u re input x

/-! ## Three digits behind a card number -/

namespace CreditCard

def ascii : Classes where
  digit := Char.isDigit
  word c := c.isAlphanum || c = '_'
  digit_of_isDigit _ h := h
  word_of_digit c h := by
    simp [Char.isAlphanum, h]
  not_word_of_isSep c h := by
    simp only [isSep, Bool.or_eq_true, decide_eq_true_eq] at h
    obtain rfl | rfl := h <;> rfl

/-- The other rules find nothing. -/
def noOther (_ : PiiKind) : Pattern := .empty

def text : List Char := "4111111111111111 123".toList

def card : Card ascii text where
  before := []
  text := "4111111111111111".toList
  after := " 123".toList
  split := by decide
  nonempty := by decide
  digits := 16
  written := by
    repeat' first | exact .last rfl | refine .digit rfl ?_
  least := by decide
  most := by decide
  valid := by decide
  left := nofun
  right := fun _ hc => Option.some.inj hc ▸ rfl

/-- The digits are all taken for one number. -/
theorem findIter_text : (((creditCard ascii).findIter text).map fun m => m.text) = [text] := by
  decide +kernel

/-- The whole number does not pass the check, so the card number stays in clear text. -/
theorem not_redacted_digits : ¬∀ (u : Classes) (re : PiiKind → Pattern) (input : List Char)
    (card : Card u input), card.Redacted re := by
  intro h
  obtain ⟨⟨m, hm, hvalid, -⟩ | ⟨_, _, m, hm, -⟩, -⟩ :=
    (redacted_iff ascii noOther text 0).1 (h ascii noOther text card 0 ⟨Nat.le_refl _, by decide⟩)
  · have htext : m.text ∈ [text] :=
      findIter_text ▸ List.mem_map_of_mem (mem_findIter_creditCard.2 hm)
    rw [List.mem_singleton.1 htext] at hvalid
    exact absurd hvalid (by decide)
  · cases hm

end CreditCard

end Tako.Governance
