import Mathlib.Tactic.NormNum
import Tako.Core.Chat
import Tako.Core.Error
import Tako.Orchestrator.Features

/-!
# The rule-based router

`RegexRouter` of `tako-orchestrator/src/router.rs`. The documentation promises candidate 0 for an
index outside the candidate list; the code takes the last candidate. The two agree exactly if the
index is in the list, or the last candidate has the name of the first (`route_asDocumented_iff`).
-/

namespace Tako.Orchestrator

namespace Features

/-- `f > 0.5`. A logarithm of `n` is above a half if `n` is above the root of 10. -/
def Feature.aboveHalf : Feature → Bool
  | .number q => 1 / 2 < q
  | .log10 n => 10 < n * n

namespace Rust

def lastUserText (messages : List Message) : Option String :=
  messages.reverse.findSome? fun m =>
    if m.role = .user then
      let t := "\n".intercalate (m.content.filterMap ContentPart.asText)
      if t = "" then none else some t
    else none

def featurise (toLowercase : List Char → List Char) (req : ChatRequest) : List Feature :=
  featuriseText toLowercase ((lastUserText req.messages).getD "").toList

end Rust

end Features

open Features (Feature)

/-- A rule's candidate, or `none` where it abstains. -/
abbrev Rule := List Feature → Option Nat

structure RegexRouter where
  rules : List Rule
  defaultIdx : Nat

structure RegexRouterBuilder where
  rules : List Rule := []
  defaultIdx : Nat := 0

namespace RegexRouterBuilder

def rule (b : RegexRouterBuilder) (f : Rule) : RegexRouterBuilder :=
  { b with rules := b.rules ++ [f] }

def withDefaultIdx (b : RegexRouterBuilder) (idx : Nat) : RegexRouterBuilder :=
  { b with defaultIdx := idx }

def build (b : RegexRouterBuilder) : RegexRouter := ⟨b.rules, b.defaultIdx⟩

end RegexRouterBuilder

namespace RegexRouter

def builder : RegexRouterBuilder := {}

/-- `f.get(i).copied().unwrap_or(0.0) > 0.5` -/
def isSet (f : List Feature) (i : Nat) : Bool := (f[i]?.getD (.number 0)).aboveHalf

/-- `RegexRouter::default`. -/
def «default» : RegexRouter :=
  (((builder.rule fun f => if isSet f 3 || isSet f 4 || isSet f 8 then some 0 else none).rule
    fun f => if isSet f 5 || isSet f 9 then some 1 else none).withDefaultIdx 2).build

/-- The decision, `none` where indexing panics. -/
def route (toLowercase : List Char → List Char) (router : RegexRouter) (req : ChatRequest)
    (candidates : List String) : Option (Result RoutingDecision) :=
  if candidates.isEmpty then
    some (.error (.invalid "RegexRouter::route: candidate list is empty"))
  else
    let feat := Features.Rust.featurise toLowercase req
    let last := candidates.length - 1
    let chosen := min ((router.rules.findSome? fun rule => rule feat).getD router.defaultIdx) last
    candidates[chosen]?.map fun providerId =>
      let confidence :=
        if router.rules.any fun r => (r feat).map (min · last) == some chosen then 1 else 1 / 2
      .ok { providerId, confidence, reason := some "regex-router" }

variable {router : RegexRouter} {feat : List Feature} {idx : Nat} {candidates : List String}

/-! ## What the documentation promises -/

/-- Some rule fires. -/
def Fires (router : RegexRouter) (feat : List Feature) : Prop :=
  ∃ rule ∈ router.rules, rule feat ≠ none

/-- `idx` is the candidate of the first rule that fires, or the default if none does. -/
inductive Selects (router : RegexRouter) (feat : List Feature) : Nat → Prop
  | rule (before : List Rule) (rule : Rule) (after : List Rule) (idx : Nat)
    (rules : router.rules = before ++ rule :: after) (abstain : ∀ r ∈ before, r feat = none)
    (fires : rule feat = some idx) : Selects router feat idx
  | default (abstain : ¬router.Fires feat) : Selects router feat router.defaultIdx

/-- The outcome is the documented one. Where there is no candidate, not even number 0, it is an
error. -/
structure AsDocumented (router : RegexRouter) (feat : List Feature) (candidates : List String)
    (outcome : Option (Result RoutingDecision)) : Prop where
  empty : candidates = [] → ∃ e, outcome = some (.error e)
  picks : candidates ≠ [] → ∃ idx decision, router.Selects feat idx ∧
    outcome = some (.ok decision) ∧
    candidates[if idx < candidates.length then idx else 0]? = some decision.providerId ∧
    (decision.confidence = 1 ↔ router.Fires feat)

/-! ## What the code does -/

theorem findSome?_eq_none_iff_not_fires :
    (router.rules.findSome? fun rule => rule feat) = none ↔ ¬router.Fires feat := by
  simp [Fires]

theorem selects_iff :
    router.Selects feat idx ↔
      (router.rules.findSome? fun rule => rule feat).getD router.defaultIdx = idx := by
  constructor
  · intro h
    cases h with
    | rule before rule after _ rules abstain fires =>
      have hbefore : (before.findSome? fun rule => rule feat) = none := by simpa using abstain
      rw [rules, List.findSome?_append, hbefore]
      simp [fires]
    | default abstain => rw [findSome?_eq_none_iff_not_fires.2 abstain, Option.getD_none]
  · intro h
    cases hf : router.rules.findSome? fun rule => rule feat with
    | none =>
      rw [hf, Option.getD_none] at h
      subst h
      exact .default (findSome?_eq_none_iff_not_fires.1 hf)
    | some i =>
      rw [hf, Option.getD_some] at h
      subst h
      obtain ⟨before, rule, after, rules, fires, abstain⟩ := List.findSome?_eq_some_iff.1 hf
      exact .rule before rule after i rules abstain fires

theorem Selects.unique (h : router.Selects feat idx) (h' : router.Selects feat idx') :
    idx = idx' := by
  rw [selects_iff] at h h'
  exact h.symm.trans h'

/-- Some rule votes for the chosen candidate exactly if some rule fires. -/
theorem any_votes_iff (h : router.Selects feat idx) (last : Nat) :
    (router.rules.any fun r => (r feat).map (min · last) == some (min idx last)) = true ↔
      router.Fires feat := by
  simp only [List.any_eq_true, beq_iff_eq, Option.map_eq_some_iff]
  constructor
  · rintro ⟨rule, mem, i, hi, -⟩
    exact ⟨rule, mem, by simp [hi]⟩
  · intro hf
    cases h with
    | rule before rule after _ rules abstain fires =>
      exact ⟨rule, by simp [rules], idx, fires, rfl⟩
    | default abstain => exact absurd hf abstain

/-- The code caps the selected index at the last candidate. -/
theorem route_eq (toLowercase : List Char → List Char) (req : ChatRequest)
    (h : router.Selects (Features.Rust.featurise toLowercase req) idx) (hne : candidates ≠ []) :
    ∃ decision, router.route toLowercase req candidates = some (.ok decision) ∧
      candidates[min idx (candidates.length - 1)]? = some decision.providerId ∧
      (decision.confidence = 1 ↔ router.Fires (Features.Rust.featurise toLowercase req)) := by
  have hpos : 0 < candidates.length := List.length_pos_iff.2 hne
  have hlt : min idx (candidates.length - 1) < candidates.length := by omega
  have hget := List.getElem?_eq_getElem hlt
  have hvotes := any_votes_iff h (candidates.length - 1)
  have hempty : candidates.isEmpty = false := by simpa using hne
  rw [selects_iff] at h
  simp only [route, hempty, h, hget, Option.map_some, Bool.false_eq_true, if_false]
  refine ⟨_, rfl, rfl, ?_⟩
  rw [← hvotes]
  split
  case isTrue hyes => exact iff_of_true rfl hyes
  case isFalse hno =>
    have half : ¬(1 / 2 : Rat) = 1 := by norm_num
    exact iff_of_false half hno

/-- Capping and falling back give the same candidate exactly if the index is in the list or the
last candidate is the first. -/
theorem getElem?_cap_eq_iff (hne : candidates ≠ []) :
    candidates[min idx (candidates.length - 1)]? =
        candidates[if idx < candidates.length then idx else 0]? ↔
      idx < candidates.length ∨ candidates.getLast? = candidates.head? := by
  have hpos : 0 < candidates.length := List.length_pos_iff.2 hne
  by_cases hin : idx < candidates.length
  · have hcap : min idx (candidates.length - 1) = idx := by omega
    simp [hcap, hin]
  · have hcap : min idx (candidates.length - 1) = candidates.length - 1 := by omega
    rw [hcap, if_neg hin, List.getLast?_eq_getElem?, List.head?_eq_getElem?]
    exact (or_iff_right hin).symm

/-- The router decides as documented exactly if the selected index is in the candidate list, or the
last candidate has the name of the first. -/
theorem route_asDocumented_iff (toLowercase : List Char → List Char) (router : RegexRouter)
    (req : ChatRequest) (candidates : List String) :
    router.AsDocumented (Features.Rust.featurise toLowercase req) candidates
        (router.route toLowercase req candidates) ↔
      ∃ idx, router.Selects (Features.Rust.featurise toLowercase req) idx ∧
        (idx < candidates.length ∨ candidates.getLast? = candidates.head?) := by
  obtain ⟨idx, hsel⟩ : ∃ idx, router.Selects (Features.Rust.featurise toLowercase req) idx :=
    ⟨_, selects_iff.2 rfl⟩
  by_cases hne : candidates = []
  · subst hne
    refine iff_of_true ⟨fun _ => ⟨_, rfl⟩, fun h => absurd rfl h⟩ ⟨idx, hsel, .inr rfl⟩
  obtain ⟨decision, hroute, hpick, hconf⟩ := route_eq toLowercase req hsel hne
  constructor
  · intro h
    obtain ⟨idx', decision', hsel', hroute', hpick', -⟩ := h.picks hne
    obtain rfl := hsel.unique hsel'
    obtain rfl : decision = decision' := by simpa [hroute] using hroute'
    exact ⟨idx, hsel, (getElem?_cap_eq_iff hne).1 (hpick.trans hpick'.symm)⟩
  · rintro ⟨idx', hsel', hin⟩
    obtain rfl := hsel.unique hsel'
    exact ⟨fun h => absurd h hne, fun _ =>
      ⟨idx, decision, hsel, hroute, ((getElem?_cap_eq_iff hne).2 hin).symm.trans hpick, hconf⟩⟩

/-- With two candidates, the default router gives a plain prompt to the second. -/
theorem default_not_asDocumented :
    ¬«default».AsDocumented
      (Features.Rust.featurise id (.new "m" [.user "hello"])) ["a", "b"]
      («default».route id (.new "m" [.user "hello"]) ["a", "b"]) := by
  have hroute : «default».route id (.new "m" [.user "hello"]) ["a", "b"] =
      some (.ok ⟨"b", 1 / 2, some "regex-router"⟩) := by decide +kernel
  intro h
  obtain ⟨idx, decision, hsel, hok, hpick, -⟩ := h.picks (by decide)
  obtain rfl : idx = 2 := (selects_iff.1 hsel).symm.trans (by decide +kernel)
  rw [hroute] at hok
  cases hok
  exact absurd hpick (by decide)

end RegexRouter

end Tako.Orchestrator
