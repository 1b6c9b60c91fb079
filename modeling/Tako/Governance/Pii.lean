import Tako.Rust.Slice
import Tako.Theory.SpanCover

/-!
# PII redaction

`detect` and `apply` of `tako-governance/src/pii.rs`. Each rule contributes the matches of its
expression that pass its validator; `detect` sorts them and keeps, from the left, those that do not
overlap what it has kept. What a rule finds is a `Pattern`, which may be any matches from the left
to the right.
-/

namespace Tako.Governance

open String (utf8Len)

/-! ## Rules -/

inductive ContentTransform where
  | mask
  | hashSha256
  | redact
  deriving DecidableEq

inductive PiiKind where
  | email
  | phone
  | ipv4
  | awsKey
  | jwt
  | ssn
  | creditCard
  deriving DecidableEq

def PiiKind.label : PiiKind → String
  | .email => "EMAIL"
  | .phone => "PHONE"
  | .ipv4 => "IPV4"
  | .awsKey => "AWS_KEY"
  | .jwt => "JWT"
  | .ssn => "SSN"
  | .creditCard => "CREDIT_CARD"

/-- A part of a text that is not empty. -/
structure Match (input : List Char) where
  before : List Char
  text : List Char
  after : List Char
  split : before ++ text ++ after = input
  nonempty : text ≠ []

def Match.span (m : Match input) : Span where
  start := utf8Len m.before
  stop := utf8Len m.before + utf8Len m.text
  lt := Nat.lt_add_of_pos_right (Nat.pos_of_ne_zero (mt String.utf8Len_eq_zero.1 m.nonempty))

/-- What `find_iter` of an expression that matches no empty text yields. -/
structure Pattern where
  findIter : (input : List Char) → List (Match input)
  ordered : ∀ input, (findIter input).Pairwise fun m n => m.span.stop ≤ n.span.start

/-- Finds nothing. -/
def Pattern.empty : Pattern where
  findIter _ := []
  ordered _ := List.Pairwise.nil

structure CompiledRule where
  kind : PiiKind
  re : Pattern
  validate : Option (List Char → Bool) := none

/-- `char::to_digit(10)` -/
def toDigit (c : Char) : Option Nat := if c.isDigit then some (c.toNat - '0'.toNat) else none

/-- Counted from the right, each second digit is doubled. -/
def luhnTerm (d i : Nat) : Nat :=
  if i % 2 = 1 then (if 2 * d > 9 then 2 * d - 9 else 2 * d) else d

def luhnSum : Nat → List Nat → Nat
  | _, [] => 0
  | i, d :: digits => luhnTerm d i + luhnSum (i + 1) digits

def luhnCheck (s : List Char) : Bool :=
  let digits := s.filterMap toDigit
  if digits.length < 13 || digits.length > 19 then false
  else luhnSum 0 digits.reverse % 10 == 0

example : luhnCheck "4111-1111-1111-1111".toList = true := by decide

def compiledRules (re : PiiKind → Pattern) : List CompiledRule :=
  [ { kind := .email, re := re .email },
    { kind := .awsKey, re := re .awsKey },
    { kind := .jwt, re := re .jwt },
    { kind := .ssn, re := re .ssn },
    { kind := .creditCard, re := re .creditCard, validate := some luhnCheck },
    { kind := .phone, re := re .phone },
    { kind := .ipv4, re := re .ipv4 } ]

/-! ## `detect` -/

structure PiiHit extends Span where
  kind : PiiKind

namespace CompiledRule

variable (rule : CompiledRule)

def validates (s : List Char) : Bool :=
  match rule.validate with
  | some v => v s
  | none => true

def hits (input : List Char) : List PiiHit :=
  ((rule.re.findIter input).filter fun m => rule.validates m.text).map fun m =>
    { m.span with kind := rule.kind }

end CompiledRule

/-- The order of the keys `(h.start, Reverse(h.end - h.start))`. -/
def sortKeyLe (h g : PiiHit) : Bool :=
  h.start < g.start || h.start == g.start && g.stop - g.start ≤ h.stop - h.start

variable (re : PiiKind → Pattern) (sha256 : List UInt8 → List UInt8)

/-- The hits of all rules, before overlaps are resolved. -/
def collect (input : List Char) : List PiiHit := (compiledRules re).flatMap (·.hits input)

def detect (input : List Char) : List PiiHit :=
  Span.scan PiiHit.toSpan 0 ((collect re input).mergeSort sortKeyLe)

/-! ## `apply` -/

/-- `format!("{b:02x}")` of each byte. -/
def hex (bytes : List UInt8) : List Char :=
  bytes.flatMap fun b => [Nat.digitChar (b.toNat / 16), Nat.digitChar (b.toNat % 16)]

/-- What a transform puts in the place of a hit. -/
def replacement (transform : ContentTransform) (hit : PiiHit) (raw : List Char) : List Char :=
  match transform with
  | .mask => raw.map fun _ => '*'
  | .hashSha256 => hex (sha256 (Str.asBytes (String.ofList raw)))
  | .redact => s!"[REDACTED:{hit.kind.label}]".toList

/-- The loop over the hits, and what is pushed after it. -/
def applyHits (input : List Char) (transform : ContentTransform) :
    Nat → List PiiHit → Option (List Char)
  | cursor, [] => Str.sliceFrom input cursor
  | cursor, hit :: hits => do
    let gap ← Str.slice input cursor hit.start
    let raw ← Str.slice input hit.start hit.stop
    let out ← applyHits input transform hit.stop hits
    some (gap ++ replacement sha256 transform hit raw ++ out)

def apply (input : List Char) (transform : ContentTransform) : Option (List Char) :=
  let hits := detect re input
  if hits.isEmpty then some input else applyHits sha256 input transform 0 hits

/-! ## What redaction is -/

/-- `out` is the text from the byte `n` on with each hit replaced, and nothing else. -/
inductive Replaces (f : PiiHit → List Char → List Char) :
    (n : Nat) → List PiiHit → (text out : List Char) → Prop where
  | rest (gap : List Char) : Replaces f n [] gap gap
  | hit {h : PiiHit} (gap : List Char) {raw : List Char} :
      h.start = n + utf8Len gap → h.stop = h.start + utf8Len raw →
      Replaces f h.stop hits text out →
      Replaces f n (h :: hits) (gap ++ raw ++ text) (gap ++ f h raw ++ out)

/-- The spans of the validated matches of all rules. -/
def matched (input : List Char) : Set Span :=
  {s | ∃ rule ∈ compiledRules re, ∃ m ∈ rule.re.findIter input,
    rule.validates m.text = true ∧ m.span = s}

/-- The hits are matches, from the left to the right, and are what the transforms replace. -/
structure Replaced (input : List Char) : Prop where
  sorted : (detect re input).Pairwise fun h g => h.start < g.start
  nonempty : ∀ h ∈ detect re input, h.start < h.stop
  disjoint : (detect re input).Pairwise fun h g => ∀ x, ¬(h.Covers x ∧ g.Covers x)
  valid : ∀ h ∈ detect re input, ∃ rule ∈ compiledRules re, rule.kind = h.kind ∧
    ∃ m ∈ rule.re.findIter input, rule.validates m.text = true ∧ m.span = h.toSpan
  replaces : ∀ transform, ∃ out, apply re sha256 input transform = some out ∧
    Replaces (replacement sha256 transform) 0 (detect re input) input out

/-- No byte of a validated match is left in clear text. -/
structure Redacts (input : List Char) : Prop extends Replaced re sha256 input where
  covered : ∀ s ∈ matched re input, ∀ x, s.Covers x → ∃ h ∈ detect re input, h.Covers x

variable {re sha256} {input : List Char}

/-! ## The hits -/

theorem mem_collect {h : PiiHit} : h ∈ collect re input ↔ ∃ rule ∈ compiledRules re,
    rule.kind = h.kind ∧ ∃ m ∈ rule.re.findIter input,
      rule.validates m.text = true ∧ m.span = h.toSpan := by
  simp only [collect, CompiledRule.hits, List.mem_flatMap, List.mem_map, List.mem_filter]
  constructor
  · rintro ⟨rule, hrule, m, ⟨hm, hv⟩, rfl⟩
    exact ⟨rule, hrule, rfl, m, hm, hv, rfl⟩
  · rintro ⟨rule, hrule, hkind, m, hm, hv, hspan⟩
    refine ⟨rule, hrule, m, ⟨hm, hv⟩, ?_⟩
    rw [hkind, hspan]

theorem sortKeyLe_iff {h g : PiiHit} : sortKeyLe h g = true ↔ Span.Before h.toSpan g.toSpan := by
  have := h.lt
  have := g.lt
  simp only [sortKeyLe, Span.Before, Bool.or_eq_true, Bool.and_eq_true, decide_eq_true_eq,
    beq_iff_eq]
  omega

theorem pairwise_sorted (l : List PiiHit) :
    (l.mergeSort sortKeyLe).Pairwise fun h g => Span.Before h.toSpan g.toSpan := by
  refine (List.pairwise_mergeSort (fun a b c hab hbc => ?_) (fun a b => ?_) l).imp
    sortKeyLe_iff.1
  · rw [sortKeyLe_iff] at *
    unfold Span.Before at *
    omega
  · rw [Bool.or_eq_true, sortKeyLe_iff, sortKeyLe_iff]
    unfold Span.Before
    omega

theorem mem_detect {h : PiiHit} (hh : h ∈ detect re input) : h ∈ collect re input :=
  List.mem_mergeSort.1 ((Span.scan_sublist _ _).subset hh)

theorem pairwise_detect (re : PiiKind → Pattern) (input : List Char) :
    (detect re input).Pairwise fun h g => h.stop ≤ g.start := Span.pairwise_scan _ _

/-- `detect` is a sweep over the validated matches. -/
theorem greedy_detect (re : PiiKind → Pattern) (input : List Char) :
    Span.Greedy (matched re input) {s | ∃ h ∈ detect re input, h.toSpan = s} := by
  have hmatched : matched re input =
      {s | ∃ h ∈ (collect re input).mergeSort sortKeyLe, h.toSpan = s} := by
    ext s
    constructor
    · rintro ⟨rule, hrule, m, hm, hv, rfl⟩
      exact ⟨{ m.span with kind := rule.kind },
        List.mem_mergeSort.2 (mem_collect.2 ⟨rule, hrule, rfl, m, hm, hv, rfl⟩), rfl⟩
    · rintro ⟨h, hh, rfl⟩
      obtain ⟨rule, hrule, -, m, hm, hv, hspan⟩ := mem_collect.1 (List.mem_mergeSort.1 hh)
      exact ⟨rule, hrule, m, hm, hv, hspan⟩
  rw [hmatched]
  exact Span.greedy_scan (pairwise_sorted _)

theorem covered_detect (re : PiiKind → Pattern) (input : List Char) (x : Nat) :
    (∃ h ∈ detect re input, h.Covers x) ↔
      ∃ k ∈ {s | ∃ h ∈ detect re input, h.toSpan = s}, k.Covers x := by
  constructor
  · rintro ⟨h, hh, hx⟩
    exact ⟨h.toSpan, ⟨h, hh, rfl⟩, hx⟩
  · rintro ⟨_, ⟨h, hh, rfl⟩, hx⟩
    exact ⟨h, hh, hx⟩

/-! ## The replacements -/

/-- The loop replaces hits whose ends are boundaries of the text. -/
theorem applyHits_replaces (transform : ContentTransform) {hits : List PiiHit}
    (hm : ∀ h ∈ hits, ∃ m : Match input, m.span = h.toSpan)
    (hp : hits.Pairwise fun h g => h.stop ≤ g.start) {pre rest : List Char}
    (hpre : pre ++ rest = input) (hle : ∀ h ∈ hits, utf8Len pre ≤ h.start) :
    ∃ out, applyHits sha256 input transform (utf8Len pre) hits = some out ∧
      Replaces (replacement sha256 transform) (utf8Len pre) hits rest out := by
  induction hp generalizing pre rest with
  | nil =>
    refine ⟨rest, ?_, .rest rest⟩
    rw [applyHits, ← hpre, Str.sliceFrom_append]
  | @cons h hits hlt _ ih =>
    obtain ⟨m, hspan⟩ := hm h List.mem_cons_self
    have hstart : h.start = utf8Len m.before := congrArg Span.start hspan.symm
    have hstop : h.stop = utf8Len (m.before ++ m.text) := by
      rw [String.utf8Len_append]
      exact congrArg Span.stop hspan.symm
    -- The match divides what is left of the text.
    obtain ⟨gap, hbefore, hrest⟩ := Str.exists_between
      (hpre.trans (m.split.symm.trans (List.append_assoc _ _ _)))
      (hstart ▸ hle h List.mem_cons_self)
    obtain ⟨out, hout, hreplaces⟩ := ih (fun g hg => hm g (List.mem_cons_of_mem _ hg)) m.split
      fun g hg => hstop ▸ hlt g hg
    have hstart' : h.start = utf8Len pre + utf8Len gap := by
      rw [hstart, hbefore, String.utf8Len_append]
    refine ⟨gap ++ replacement sha256 transform h m.text ++ out, ?_, ?_⟩
    · have hgap : Str.slice input (utf8Len pre) h.start = some gap := by
        rw [← hpre, hrest, hstart', ← List.append_assoc]
        exact Str.slice_append _ _ _
      have hraw : Str.slice input h.start h.stop = some m.text := by
        rw [hstart, hstop, String.utf8Len_append]
        exact (congrArg (Str.slice · _ _) m.split.symm).trans (Str.slice_append _ _ _)
      rw [applyHits, hgap, hraw, hstop, hout]
      rfl
    · rw [hrest, ← List.append_assoc]
      refine .hit gap hstart' ?_ (hstop ▸ hreplaces)
      rw [hstop, hstart, String.utf8Len_append]

theorem exists_match {h : PiiHit} (hh : h ∈ detect re input) :
    ∃ m : Match input, m.span = h.toSpan := by
  obtain ⟨_, _, _, m, _, _, hspan⟩ := mem_collect.1 (mem_detect hh)
  exact ⟨m, hspan⟩

theorem apply_replaces (re : PiiKind → Pattern) (sha256 : List UInt8 → List UInt8)
    (input : List Char) (transform : ContentTransform) :
    ∃ out, apply re sha256 input transform = some out ∧
      Replaces (replacement sha256 transform) 0 (detect re input) input out := by
  unfold apply
  dsimp only
  split
  · next h =>
    rw [List.isEmpty_iff.1 h]
    exact ⟨input, rfl, .rest input⟩
  · exact applyHits_replaces transform (fun _ => exists_match) (pairwise_detect re input)
      (List.nil_append input) fun _ _ => Nat.zero_le _

theorem replaced (re : PiiKind → Pattern) (sha256 : List UInt8 → List UInt8) (input : List Char) :
    Replaced re sha256 input where
  sorted := (pairwise_detect re input).imp (Nat.lt_of_lt_of_le (Span.lt _))
  nonempty _ _ := Span.lt _
  disjoint := (pairwise_detect re input).imp fun hle x hx =>
    Nat.lt_irrefl x (Nat.lt_of_lt_of_le hx.1.2 (Nat.le_trans hle hx.2.1))
  valid _ hh := mem_collect.1 (mem_detect hh)
  replaces := apply_replaces re sha256 input

/-- Redaction leaves no match in clear text exactly if no run of adjoining longest matches ends
inside a match, where no other begins. -/
theorem redacts_iff (re : PiiKind → Pattern) (sha256 : List UInt8 → List UInt8)
    (input : List Char) :
    Redacts re sha256 input ↔ ∀ x, ¬Span.Frayed (matched re input) x := by
  rw [← (greedy_detect re input).covers_iff]
  simp only [← covered_detect]
  exact ⟨fun h => h.covered, fun h => ⟨replaced re sha256 input, h⟩⟩

/-! ## A card number beside an address -/

namespace Pii

/-- Finds the part of the text with `n` characters from the `i`-th on. -/
def part (i n : Nat) : Pattern where
  findIter input :=
    if h : (input.drop i).take n ≠ [] then
      [{ before := input.take i, text := (input.drop i).take n, after := (input.drop i).drop n,
         split := by rw [List.append_assoc, List.take_append_drop, List.take_append_drop]
         nonempty := h }]
    else []
  ordered input := by
    split
    · exact List.pairwise_singleton _ _
    · exact .nil

def text : List Char := "4111 1111 1111 1111@x.com".toList

/-- What the rules find in that text. -/
def patterns : PiiKind → Pattern
  | .creditCard => part 0 19
  | .phone => part 0 14
  | .email => part 15 10
  | _ => .empty

/-- The card number passes the validator. -/
theorem collect_text :
    (collect patterns text).map (fun h => (h.start, h.stop)) = [(15, 25), (0, 19), (0, 14)] := by
  decide

theorem matched_text (h : s ∈ matched patterns text) :
    (s.start, s.stop) ∈ [(15, 25), (0, 19), (0, 14)] := by
  obtain ⟨rule, hrule, m, hm, hv, rfl⟩ := h
  rw [← collect_text]
  exact List.mem_map.2 ⟨{ m.span with kind := rule.kind },
    mem_collect.2 ⟨rule, hrule, rfl, m, hm, hv, rfl⟩, rfl⟩

theorem exists_matched (start stop : Nat) (h : (start, stop) ∈ [(15, 25), (0, 19), (0, 14)]) :
    ∃ s ∈ matched patterns text, s.start = start ∧ s.stop = stop := by
  rw [← collect_text] at h
  obtain ⟨g, hg, hspan⟩ := List.mem_map.1 h
  obtain ⟨rule, hrule, -, m, hm, hv, hs⟩ := mem_collect.1 hg
  refine ⟨g.toSpan, ⟨rule, hrule, m, hm, hv, hs⟩, ?_⟩
  exact Prod.mk.inj hspan

/-- The card number ends inside the address, and nothing begins there. -/
theorem frayed_text : Span.Frayed (matched patterns text) 19 := by
  obtain ⟨card, hcard, hstart, hstop⟩ :=
    exists_matched 0 19 (.tail _ (.head _))
  obtain ⟨address, haddress, ha⟩ := exists_matched 15 25 (.head _)
  have hbounds : ∀ s ∈ matched patterns text, s.start = 15 ∧ s.stop = 25 ∨
      s.start = 0 ∧ s.stop ≤ 19 := by
    intro s hs
    have := matched_text hs
    simp only [List.mem_cons, Prod.mk.injEq, List.not_mem_nil, or_false] at this
    omega
  have hcut : Span.Cut (matched patterns text) card.stop := by
    refine .next (.free fun s _ hcross => ?_) hcard fun s hs hs0 => ?_
    · exact Nat.not_lt_zero _ (hstart ▸ hcross.1)
    · have := hbounds s hs
      omega
  refine ⟨hstop ▸ hcut, ⟨address, haddress, ?_⟩, fun s hs => ?_⟩
  · unfold Span.Crosses
    omega
  · have := hbounds s hs
    omega

/-- The host of the address stays in clear text. -/
theorem not_redacts_address :
    ¬∀ (re : PiiKind → Pattern) (sha256 : List UInt8 → List UInt8) (input : List Char),
      Redacts re sha256 input := by
  intro h
  obtain ⟨address, haddress, hcross⟩ := frayed_text.crossed
  obtain ⟨k, hk, hcovers⟩ := (covered_detect _ _ _).1
    ((h patterns id text).covered address haddress 19 hcross.covers)
  have hgreedy := greedy_detect patterns text
  exact frayed_text.bare k (hgreedy.subset hk) (hgreedy.start_eq frayed_text.cut hk hcovers)

end Pii

end Tako.Governance
