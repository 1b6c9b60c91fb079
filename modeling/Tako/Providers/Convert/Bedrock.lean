import Tako.Core.Error
import Tako.Providers.Stream.Bedrock
import Tako.Theory.SortedMap

/-!
# Responses of Bedrock

`tako-providers/bedrock/src/convert.rs`. A tool's input is a `Document` of the SDK, which has its
own numbers; JSON goes into it and back unchanged (`json_document_round_trip`).
-/

namespace Tako.Providers.Bedrock

/-! ## Documents -/

/-- `aws_smithy_types::Number`. A float is kept as its bit pattern. -/
inductive Number where
  | posInt (n : UInt64)
  | negInt (n : Int64)
  | float (bits : UInt64)

/-- `aws_smithy_types::Document`. The `HashMap` of an object lists its members by key. -/
inductive Document where
  | object (members : List (String × Document))
  | array (items : List Document)
  | number (n : Number)
  | string (s : String)
  | bool (b : Bool)
  | null

/-- `Number::as_i64`. -/
def asI64 : JsonNumber → Option Int64
  | .posInt n => if n < 9223372036854775808 then some (Int64.ofNat n) else none
  | .negInt n => some (Int64.ofInt n)
  | .float _ => none

/-- `Number::as_u64`. -/
def asU64 : JsonNumber → Option UInt64
  | .posInt n => some (UInt64.ofNat n)
  | .negInt _ | .float _ => none

/-- `Number::as_f64`, of a float. -/
def floatBits : JsonNumber → Option UInt64
  | .posInt _ | .negInt _ => none
  | .float bits => some bits

def numberToDocument (n : JsonNumber) : Document :=
  match asI64 n, asU64 n, floatBits n with
  | some i, _, _ => .number (.negInt i)
  | none, some u, _ => .number (.posInt u)
  | none, none, some bits => .number (.float bits)
  | none, none, none => .null

/-- `f64::is_finite`: the exponent is not all ones. -/
def isFinite (bits : UInt64) : Bool := (bits >>> 52) &&& 0x7ff != 0x7ff

def numberToJson : Number → Json
  | .posInt u => .ofU64 u.toNat
  | .negInt i => .ofI64 i.toInt
  | .float bits => if isFinite bits then .number (.float bits) else .null

mutual

def jsonToDocument : Json → Document
  | .null => .null
  | .bool b => .bool b
  | .number n => numberToDocument n
  | .string s => .string s
  | .array items => .array (itemsToDocuments items)
  | .object members => .object (SortedMap.collect (membersToDocuments members))

def itemsToDocuments : List Json → List Document
  | [] => []
  | v :: items => jsonToDocument v :: itemsToDocuments items

def membersToDocuments : List (String × Json) → List (String × Document)
  | [] => []
  | (k, v) :: members => (k, jsonToDocument v) :: membersToDocuments members

end

/-- The order in which a `HashMap` gives its entries. -/
structure Iteration where
  order : List (String × Json) → List (String × Json)
  perm : ∀ entries, (order entries).Perm entries

section

variable (iteration : Iteration)

mutual

def documentToJson : Document → Json
  | .null => .null
  | .bool b => .bool b
  | .number n => numberToJson n
  | .string s => .string s
  | .array items => .array (documentsToItems items)
  | .object members => .object (SortedMap.collect (iteration.order (documentsToMembers members)))

def documentsToItems : List Document → List Json
  | [] => []
  | d :: items => documentToJson d :: documentsToItems items

def documentsToMembers : List (String × Document) → List (String × Json)
  | [] => []
  | (k, d) :: members => (k, documentToJson d) :: documentsToMembers members

end

end

/-! ## The round trip -/

/-- A number that `serde_json` can hold. -/
def ValidNumber : JsonNumber → Prop
  | .posInt n => n < 18446744073709551616
  | .negInt n => -9223372036854775808 ≤ n ∧ n < 0
  | .float bits => isFinite bits = true

/-- A value that `serde_json` can hold: the keys of an object are in order and distinct. -/
inductive Valid : Json → Prop
  | null : Valid .null
  | bool (b : Bool) : Valid (.bool b)
  | number : ValidNumber n → Valid (.number n)
  | string (s : String) : Valid (.string s)
  | array : (∀ v ∈ items, Valid v) → Valid (.array items)
  | object : SortedMap.Sorted members → (∀ e ∈ members, Valid e.2) → Valid (.object members)

/-- The signed numbers come first, so those of them that are not negative come back as unsigned. -/
theorem numberToJson_numberToDocument (iteration : Iteration) {n : JsonNumber}
    (h : ValidNumber n) : documentToJson iteration (numberToDocument n) = .number n := by
  cases n with
  | posInt n =>
    by_cases hn : n < 9223372036854775808
    · have hsigned : asI64 (.posInt n) = some (Int64.ofNat n) := if_pos hn
      have hnonneg : ¬(n : Int) < 0 := by omega
      rw [numberToDocument, hsigned]
      dsimp only
      rw [documentToJson, numberToJson, Int64.toInt_ofNat_of_lt hn, Json.ofI64, if_neg hnonneg,
        Int.toNat_natCast]
    · have hsigned : asI64 (.posInt n) = none := if_neg hn
      rw [numberToDocument, hsigned, asU64]
      dsimp only
      rw [documentToJson, numberToJson, UInt64.toNat_ofNat_of_lt' h, Json.ofU64]
  | negInt n =>
    have hint : (Int64.ofInt n).toInt = n := Int64.toInt_ofInt_of_le h.1 (by have := h.2; omega)
    rw [numberToDocument, asI64]
    dsimp only
    rw [documentToJson, numberToJson, hint, Json.ofI64, if_pos h.2]
  | float bits =>
    have hfinite : isFinite bits = true := h
    rw [numberToDocument, asI64, asU64, floatBits]
    dsimp only
    rw [documentToJson, numberToJson, if_pos hfinite]

theorem itemsToDocuments_eq_map (items : List Json) :
    itemsToDocuments items = items.map jsonToDocument := by
  induction items with
  | nil => rfl
  | cons v items ih => rw [itemsToDocuments, ih, List.map_cons]

theorem membersToDocuments_eq_map (members : List (String × Json)) :
    membersToDocuments members = members.map fun e => (e.1, jsonToDocument e.2) := by
  induction members with
  | nil => rfl
  | cons e members ih =>
    obtain ⟨k, v⟩ := e
    rw [membersToDocuments, ih, List.map_cons]

theorem documentsToItems_eq_map (iteration : Iteration) (items : List Document) :
    documentsToItems iteration items = items.map (documentToJson iteration) := by
  induction items with
  | nil => rfl
  | cons d items ih => rw [documentsToItems, ih, List.map_cons]

theorem documentsToMembers_eq_map (iteration : Iteration) (members : List (String × Document)) :
    documentsToMembers iteration members =
      members.map fun e => (e.1, documentToJson iteration e.2) := by
  induction members with
  | nil => rfl
  | cons e members ih =>
    obtain ⟨k, d⟩ := e
    rw [documentsToMembers, ih, List.map_cons]

theorem documentToJson_jsonToDocument (iteration : Iteration) {v : Json} (h : Valid v) :
    documentToJson iteration (jsonToDocument v) = v := by
  induction h with
  | null | bool | string => simp only [jsonToDocument, documentToJson]
  | number h => rw [jsonToDocument, numberToJson_numberToDocument iteration h]
  | @array items _ ih =>
    have hitems : documentsToItems iteration (itemsToDocuments items) = items := by
      rw [documentsToItems_eq_map, itemsToDocuments_eq_map, List.map_map]
      exact (List.map_congr_left (g := id) ih).trans (List.map_id _)
    rw [jsonToDocument, documentToJson, hitems]
  | @object members hsorted _ ih =>
    have hdocuments : SortedMap.Sorted (membersToDocuments members) := by
      rw [membersToDocuments_eq_map]
      exact List.pairwise_map.mpr hsorted
    have hmembers : documentsToMembers iteration (membersToDocuments members) = members := by
      rw [documentsToMembers_eq_map, membersToDocuments_eq_map, List.map_map]
      refine (List.map_congr_left (g := id) fun e he => ?_).trans (List.map_id _)
      exact Prod.ext rfl (ih e he)
    rw [jsonToDocument, documentToJson, SortedMap.collect_of_perm hdocuments (.refl _), hmembers,
      SortedMap.collect_of_perm hsorted (iteration.perm members)]

/-- JSON goes into a document and back, and so does a document that JSON has gone into. -/
theorem json_document_round_trip (iteration : Iteration) :
    (∀ v, Valid v → documentToJson iteration (jsonToDocument v) = v) ∧
      ∀ v d, Valid v → jsonToDocument v = d →
        jsonToDocument (documentToJson iteration d) = d := by
  refine ⟨fun v h => documentToJson_jsonToDocument iteration h, fun v d h hd => ?_⟩
  rw [← hd, documentToJson_jsonToDocument iteration h]

/-! ## Responses -/

inductive ContentBlock where
  | text (text : String)
  | toolUse (toolUseId name : String) (input : Document)
  | other

/-- `ConverseOutput`; `output` is the content of its message, if it has one. -/
structure ConverseOutput where
  output : Option (List ContentBlock)
  stopReason : StopReason
  usage : Option TokenUsage

def outputFinishReason : StopReason → FinishReason
  | .endTurn => .stop
  | .stopSequence => .stop
  | .maxTokens | .modelContextWindowExceeded => .length
  | .toolUse => .toolCalls
  | .contentFiltered => .contentFilter
  | .guardrailIntervened => .contentFilter
  | .malformedModelOutput | .malformedToolUse => .error
  | .unknown _ => .other

/-- Empty texts and other blocks are dropped. -/
def blockContent (iteration : Iteration) : ContentBlock → Option ContentPart
  | .text text => if text = "" then none else some (.text text)
  | .toolUse toolUseId name input =>
    some (.toolCall toolUseId name (documentToJson iteration input))
  | .other => none

def fromConverseOutput (iteration : Iteration) (output : ConverseOutput) : Result ChatResponse :=
  .ok
    { message := ⟨.assistant, (output.output.getD []).filterMap (blockContent iteration)⟩
      finishReason := outputFinishReason output.stopReason
      usage := (output.usage.map fun u => ⟨toU32 u.inputTokens, toU32 u.outputTokens⟩).getD {} }

end Tako.Providers.Bedrock
