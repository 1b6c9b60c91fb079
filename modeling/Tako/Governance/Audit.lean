import Tako.Governance.Policy
import Tako.Orchestrator.StepHash
import Tako.Rust.Io

/-!
# The audit log

`AuditLog::record` (`tako-governance/src/policy.rs`) appends a line to a file for each decision of a
policy. The line is written under a lock, in as many writes as the writer needs, and without an
`await`. A line is the compact JSON of an entry, and no two lists of entries have the same lines
(`lines_injective`).
-/

namespace Tako

open SelfDelimiting Async
open Mcp (Serde SingleLine)
open Mcp.Serde (FloatTexts isNumberChar)
open Orchestrator (utf8 utf8_append utf8_injective utf8_flatMap halfSerde halfText_floatTexts)

/-! ## Entries -/

/-- serde's form of a decision. -/
def PolicyDecision.toJson : PolicyDecision → Json
  | .allow => .object [("decision", .string "allow")]
  | .deny reason => .object [("decision", .string "deny"), ("reason", .string reason)]
  | .redactMessages mask =>
    .object [("decision", .string "redact_messages"), ("mask", .array (mask.map .string))]
  | .redactResponse mask =>
    .object [("decision", .string "redact_response"), ("mask", .array (mask.map .string))]
  | .forceModel model => .object [("decision", .string "force_model"), ("model", .string model)]
  | .requireApproval reason =>
    .object [("decision", .string "require_approval"), ("reason", .string reason)]

namespace Governance

/-- What is written of a decision. -/
structure AuditEntry where
  ts : String
  tenantId : String
  userId : String
  stage : PolicyStage
  decision : PolicyDecision
  model : String
  deriving DecidableEq

/-- The arguments of a call of `record`. -/
structure AuditCall where
  principal : Principal
  ctx : PolicyContext
  decision : PolicyDecision

def AuditCall.entry (call : AuditCall) (ts : String) : AuditEntry where
  ts
  tenantId := call.principal.tenantId
  userId := call.principal.userId
  stage := call.ctx.stage
  decision := call.decision
  model := call.ctx.model

namespace AuditEntry

/-- The keys are in the order of a `serde_json::Map`. -/
def toJson (e : AuditEntry) : Json :=
  .object [
    ("decision", e.decision.toJson),
    ("model", .string e.model),
    ("principal", .object [("tenant_id", .string e.tenantId), ("user_id", .string e.userId)]),
    ("stage", .string (stageName e.stage)),
    ("ts", .string e.ts)]

def text (serde : Serde) (e : AuditEntry) : String := serde.text e.toJson

def line (serde : Serde) (e : AuditEntry) : List UInt8 := utf8 (e.text serde ++ "\n")

/-! ### Their texts -/

theorem map_string_injective {l l' : List String} (h : l.map Json.string = l'.map Json.string) :
    l = l' :=
  List.map_injective_iff.2 (fun _ _ hs => Json.string.inj hs) h

theorem decision_injective {d d' : PolicyDecision} (h : d.toJson = d'.toJson) : d = d' := by
  cases d <;> cases d' <;> simp [PolicyDecision.toJson] at h ⊢
  case deny.deny => exact h
  case redactMessages.redactMessages => exact map_string_injective h
  case redactResponse.redactResponse => exact map_string_injective h
  case forceModel.forceModel => exact h
  case requireApproval.requireApproval => exact h

theorem stageName_injective {stage stage' : PolicyStage} (h : stageName stage = stageName stage') :
    stage = stage' := by
  cases stage <;> cases stage' <;> simp [stageName] at h ⊢

theorem toJson_injective {e e' : AuditEntry} (h : e.toJson = e'.toJson) : e = e' := by
  obtain ⟨ts, tenantId, userId, stage, decision, model⟩ := e
  obtain ⟨ts', tenantId', userId', stage', decision', model'⟩ := e'
  simp only [toJson, Json.object.injEq, List.cons.injEq, Prod.mk.injEq, Json.string.injEq,
    true_and, and_true] at h
  obtain ⟨hdecision, rfl, ⟨rfl, rfl⟩, hstage, rfl⟩ := h
  rw [decision_injective hdecision, stageName_injective hstage]

theorem valid_strings (l : List String) : (Json.array (l.map .string)).Valid := by
  refine .array _ fun v hv => ?_
  obtain ⟨s, -, rfl⟩ := List.mem_map.1 hv
  exact .string s

theorem valid_decision (d : PolicyDecision) : d.toJson.Valid := by
  cases d <;> exact .object _ (by simp [Json.Valid.string, valid_strings])

theorem valid_toJson (e : AuditEntry) : e.toJson.Valid := by
  have hprincipal : (Json.object [("tenant_id", .string e.tenantId),
      ("user_id", .string e.userId)]).Valid := .object _ (by simp [Json.Valid.string])
  exact .object _ (by simp [Json.Valid.string, valid_decision, hprincipal])

theorem decision_text (serde serde' : Serde) (d : PolicyDecision) :
    serde.text d.toJson = serde'.text d.toJson := by
  cases d <;> simp [PolicyDecision.toJson, Serde.text, Serde.memberTexts, Serde.texts_eq_map,
    Function.comp_def]

/-- There are no floats in an entry. -/
theorem text_eq (serde serde' : Serde) (e : AuditEntry) : e.text serde = e.text serde' := by
  simp [text, toJson, Serde.text, Serde.memberTexts, decision_text serde serde']

variable {serde : Serde} {e : AuditEntry}

theorem singleLine_text (serde : Serde) (e : AuditEntry) : SingleLine (e.text serde) := by
  rw [text_eq serde ⟨fun _ => "", fun _ => none⟩]
  refine Serde.singleLine_text (fun _ => ?_) e.toJson
  exact (by decide : SingleLine "")

/-- The characters of a line. -/
def lineCode (serde : Serde) (e : AuditEntry) : List Char := serde.code e.toJson ++ ['\n']

theorem lineCode_starts : Starts (fun _ => True) (fun _ => True) (lineCode serde) :=
  fun _ _ => ⟨_, _, congrArg (· ++ ['\n']) (Serde.code_object _), trivial⟩

/-- The text ends where its object is closed, and the line break follows. -/
theorem lineCode_separates (hf : FloatTexts serde.float) (e : AuditEntry) :
    Separates (fun _ => True) (fun _ => True) (lineCode serde) e := by
  intro e' r s _ _ _ h
  rw [lineCode, lineCode, List.append_assoc, List.append_assoc] at h
  have hends : ∀ t, Stops (isNumberChar · = false) ('\n' :: t) := fun t => stops_cons.2 rfl
  obtain ⟨hjson, hrest⟩ := Serde.text_separates hf (valid_toJson e) _ _ _ (valid_toJson e')
    (hends r) (hends s) h
  exact ⟨toJson_injective hjson, (List.cons.inj hrest).2⟩

theorem line_eq (serde : Serde) (e : AuditEntry) :
    e.line serde = utf8 (String.ofList (lineCode halfSerde e)) := by
  rw [line, text_eq serde halfSerde, lineCode, String.ofList_append, Serde.code,
    String.ofList_toList]
  rfl

theorem line_ne_nil (serde : Serde) (e : AuditEntry) : e.line serde ≠ [] := by
  intro hnil
  have hempty := utf8_injective (a := e.text serde ++ "\n") (b := "") hnil
  have hlen := congrArg (fun t : String => t.toList.length) hempty
  simp at hlen

/-- No two lists of entries have the same lines. -/
theorem lines_injective (serde : Serde) {es es' : List AuditEntry}
    (h : es.flatMap (line serde) = es'.flatMap (line serde)) : es = es' := by
  rw [funext (line_eq serde), ← utf8_flatMap, ← utf8_flatMap] at h
  have hcode := congrArg String.toList (utf8_injective h)
  rw [String.toList_ofList, String.toList_ofList, ← List.append_nil (es.flatMap _),
    ← List.append_nil (es'.flatMap _)] at hcode
  exact (Separates.flatMap lineCode_starts (fun _ h => h)
    (fun e _ => ⟨trivial, lineCode_separates halfText_floatTexts e⟩) (fun _ _ => trivial)
    stops_nil stops_nil hcode).1

end AuditEntry

/-! ## Calls -/

/-- The clock, and the writer, which takes some of the bytes. -/
structure AuditIo (W : Type) where
  now : W → String × W
  write : List UInt8 → W → Except String Nat × W

/-- `MemWriter`, which takes everything. -/
def AuditIo.inMemory {W : Type} (now : W → String × W) : AuditIo W where
  now
  write bytes w := (.ok bytes.length, w)

/-- What a call has brought to the file. -/
structure AuditAttempt (ι : Type) where
  caller : ι
  entry : AuditEntry
  bytes : List UInt8 := []
  failed : Bool := false

/-- The log's file, who has it, and the attempts to write to it, the newest first. -/
structure AuditCell (ι W : Type) where
  world : W
  file : List UInt8 := []
  lock : Option ι := none
  attempts : List (AuditAttempt ι) := []

namespace AuditCell

variable {ι W : Type}

def now (io : AuditIo W) (s : AuditCell ι W) : String × AuditCell ι W :=
  let r := io.now s.world
  (r.1, { s with world := r.2 })

def free (s : AuditCell ι W) : Bool := s.lock.isNone

def acquire (i : ι) (entry : AuditEntry) (s : AuditCell ι W) : AuditCell ι W :=
  { s with lock := some i, attempts := ⟨i, entry, [], false⟩ :: s.attempts }

def release (s : AuditCell ι W) : AuditCell ι W := { s with lock := none }

/-- How many bytes a call of the writer has taken. -/
def taken : Except String Nat → Nat
  | .ok n => n
  | .error _ => 0

def write (io : AuditIo W) (bytes : List UInt8) (s : AuditCell ι W) :
    Except String Nat × AuditCell ι W :=
  let r := io.write bytes s.world
  (r.1,
    { s with
      world := r.2
      file := s.file ++ bytes.take (taken r.1)
      attempts := s.attempts.modifyHead fun a =>
        { a with bytes := a.bytes ++ bytes.take (taken r.1), failed := taken r.1 == 0 } })

end AuditCell

namespace AuditLog

variable {ι W : Type}

/-- An error of the writer is only logged. -/
def record (io : AuditIo W) (serde : Serde) (i : ι) (call : AuditCall) :
    Async (AuditCell ι W) Unit := do
  let ts ← atomically (AuditCell.now io)
  let entry := call.entry ts
  let line := entry.line serde
  let _ ← acquiring AuditCell.free (AuditCell.acquire i entry) AuditCell.release
    (Io.writeAll (AuditCell.write io) line.length line).unbroken
  pure ()

/-- A call alone, in memory. -/
theorem record_inMemory (now : W → String × W) (serde : Serde) (i : ι) (call : AuditCall)
    {s : AuditCell ι W} (h : s.lock = none) :
    (record (.inMemory now) serde i call).exec s = some ((),
      { world := (now s.world).2
        file := s.file ++ (call.entry (now s.world).1).line serde
        lock := none
        attempts := ⟨i, call.entry (now s.world).1, (call.entry (now s.world).1).line serde, false⟩
          :: s.attempts }) := by
  have hne := AuditEntry.line_ne_nil serde (call.entry (now s.world).1)
  have hfree : (AuditCell.now (.inMemory now) s).2.free = true := by
    simp [AuditCell.free, AuditCell.now, h]
  have hts : (AuditCell.now (.inMemory now) s).1 = (now s.world).1 := rfl
  rw [record, exec_bind, exec_atomically, Option.bind_some, exec_bind, exec_acquiring hfree,
    exec_unbroken, hts, Io.exec_writeAll rfl hne]
  simp [AuditCell.write, AuditCell.acquire, AuditCell.release, AuditCell.now, AuditCell.taken,
    AuditIo.inMemory, hne]

end AuditLog

end Governance

end Tako
