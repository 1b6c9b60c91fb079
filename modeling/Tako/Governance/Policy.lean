import Mathlib.Tactic.SplitIfs
import Tako.Orchestrator.Basic

/-!
# Rego policies

`OpaBundle` (`tako-governance/src/policy.rs`) asks the Rego interpreter for a stage's decision and
parses the value that comes back. `Permits` and `Refuses` are the values that say what they mean;
the parser also lets every other value pass, as `blocks_parseDecision_iff` shows.
-/

namespace Tako.Governance

open Orchestrator

/-! ## The parser -/

/-- `Value::as_str`. -/
def asStr : Json → Option String
  | .string s => some s
  | _ => none

/-- `map.get(key).and_then(Value::as_str)`. -/
def strField (map : List (String × Json)) (key : String) : Option String :=
  (map.lookup key).bind asStr

/-- `map.get("mask")`: the strings of the array. -/
def maskField (map : List (String × Json)) : List String :=
  match map.lookup "mask" with
  | some (.array items) => items.filterMap asStr
  | _ => []

/-- `parse_decision` on the value of a query; `none` is `Undefined`. -/
def parseDecision : Option Json → PolicyDecision
  | none | some .null => .allow
  | some (.string s) =>
    if s = "allow" then .allow else if s = "deny" then .deny "policy denied" else .allow
  | some (.object map) =>
    let decision := (strField map "decision").getD "allow"
    let reason := (strField map "reason").getD "policy denied"
    if decision = "allow" then .allow
    else if decision = "deny" then .deny reason
    else if decision = "redact_messages" then .redactMessages (maskField map)
    else if decision = "redact_response" then .redactResponse (maskField map)
    else if decision = "force_model" then .forceModel ((strField map "model").getD "")
    else if decision = "require_approval" then .requireApproval reason
    else .allow
  | some _ => .allow

/-! ## The engine -/

/-- The Rego interpreter on a bundle's sources: compiling them (an error names the file), setting
the input, and evaluating a query to result sets of expression values. -/
structure Rego (W : Type) where
  compile : Except (String × String) Unit
  setInput : String → Except String Unit
  evalQuery : String → String → W → Except String (List (List (Option Json))) × W

def stageName : PolicyStage → String
  | .preChat => "pre_chat"
  | .preTool => "pre_tool"
  | .postChat => "post_chat"

/-- `data.tako.<stage>.decision`. -/
def stageQuery (stage : PolicyStage) : String := s!"data.tako.{stageName stage}.decision"

def optString : Option String → Json
  | some s => .string s
  | none => .null

def policyInput (p : Principal) (ctx : PolicyContext) : Json :=
  .object [
    ("principal", .object [("tenant_id", .string p.tenantId), ("user_id", .string p.userId),
      ("roles", .array (p.roles.map .string))]),
    ("stage", .string (stageName ctx.stage)),
    ("model", .string ctx.model),
    ("messages_hash", .string ctx.messagesHash),
    ("tools", .array (ctx.tools.map .string)),
    ("tool_args_hash", optString ctx.toolArgsHash),
    ("response_hash", optString ctx.responseHash)]

structure OpaBundle (W : Type) where
  codec : Codec
  rego : Rego W

namespace OpaBundle

variable {W : Type} (B : OpaBundle W)

/-- The value of a stage's query: the first expression of the first result. -/
def value (p : Principal) (ctx : PolicyContext) (w : W) : Result (Option Json) × W :=
  match B.rego.compile with
  | .error (name, e) => (.error (.invalid s!"Rego compile {name}: {e}"), w)
  | .ok () =>
    let input := B.codec.jsonToString (policyInput p ctx)
    match B.rego.setInput input with
    | .error e => (.error (.invalid s!"Rego set_input: {e}"), w)
    | .ok () =>
      let query := stageQuery ctx.stage
      match B.rego.evalQuery query input w with
      | (.error e, w) => (.error (.invalid s!"Rego eval `{query}`: {e}"), w)
      | (.ok sets, w) => (.ok ((sets.head?.bind List.head?).join), w)

/-- `OpaBundle::evaluate`. -/
def engine : PolicyEngine W where
  evaluate p ctx w :=
    match B.value p ctx w with
    | (.ok v, w) => (.ok (parseDecision v), w)
    | (.error e, w) => (.error e, w)

theorem evaluate_eq_ok {w : W} (h : (B.engine.evaluate p ctx w).1 = .ok d) :
    ∃ v, (B.value p ctx w).1 = .ok v ∧ d = parseDecision v := by
  unfold engine at h
  dsimp only at h
  split at h
  · next v w' hv => exact ⟨v, by rw [hv], (Except.ok.inj h).symm⟩
  · cases h

theorem evaluate_of_value {w : W} (h : (B.value p ctx w).1 = .ok v) :
    (B.engine.evaluate p ctx w).1 = .ok (parseDecision v) := by
  unfold engine
  dsimp only
  split
  · next hv =>
    rw [hv] at h
    rw [Except.ok.inj h]
  · next hv =>
    rw [hv] at h
    cases h

end OpaBundle

/-! ## What values mean -/

/-- No restriction, or an explicit allow. -/
inductive Permits : Option Json → Prop
  | undefined : Permits none
  | null : Permits (some .null)
  | allow : Permits (some (.string "allow"))
  | object : strField map "decision" = some "allow" → Permits (some (.object map))

/-- An explicit refusal that the parser knows. -/
inductive Refuses : Option Json → Prop
  | deny : Refuses (some (.string "deny"))
  | object : strField map "decision" = some "deny" → Refuses (some (.object map))
  | approval : strField map "decision" = some "require_approval" → Refuses (some (.object map))

/-- A value refuses a call exactly if it says so. -/
theorem blocks_parseDecision_iff (v : Option Json) :
    (parseDecision v).Blocks ↔ Refuses v := by
  constructor
  · intro h
    cases v with
    | none => exact h.elim
    | some j =>
      cases j with
      | null | bool | number | array => exact h.elim
      | string s =>
        simp only [parseDecision] at h
        split_ifs at h with ha hd
        · exact h.elim
        · exact hd ▸ .deny
        · exact h.elim
      | object map =>
        simp only [parseDecision] at h
        cases hdec : strField map "decision" with
        | none => simp [hdec, PolicyDecision.Blocks] at h
        | some d =>
          rw [hdec, Option.getD_some] at h
          split_ifs at h with h1 h2 h3 h4 h5 h6
          · exact h.elim
          · exact .object (h2 ▸ hdec)
          · exact h.elim
          · exact h.elim
          · exact h.elim
          · exact .approval (h6 ▸ hdec)
          · exact h.elim
  · intro h
    cases h with
    | deny => simp [parseDecision, PolicyDecision.Blocks]
    | object h => simp [parseDecision, h, PolicyDecision.Blocks]
    | approval h => simp [parseDecision, h, PolicyDecision.Blocks]

end Tako.Governance
