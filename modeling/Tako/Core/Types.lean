/-!
# Shared data types

The JSON values of `serde_json` and the tool schema of `tako-core/src/types.rs`.
-/

namespace Tako

/-- `serde_json::Number`. A float is kept as its bit pattern. -/
inductive JsonNumber where
  | posInt (n : Nat)
  | negInt (n : Int)
  | float (bits : UInt64)
  deriving DecidableEq, Repr

/-- `serde_json::Value`. An object lists its members in the map's order. -/
inductive Json where
  | null
  | bool (b : Bool)
  | number (n : JsonNumber)
  | string (s : String)
  | array (items : List Json)
  | object (members : List (String × Json))
  deriving Repr

/-- `Value::from` of a `u64`. -/
def Json.ofU64 (n : Nat) : Json := .number (.posInt n)

/-- `Value::from` of an `i64`. -/
def Json.ofI64 (n : Int) : Json := .number (if n < 0 then .negInt n else .posInt n.toNat)

structure ToolAnnotations where
  readOnlyHint : Option Bool := none
  destructiveHint : Option Bool := none
  idempotentHint : Option Bool := none
  openWorldHint : Option Bool := none
  deriving DecidableEq, Repr

structure ToolSchema where
  name : String
  description : String
  inputSchema : Json
  annotations : Option ToolAnnotations := none
  deriving Repr

/-- The member of an optional field, if there is a value. -/
def optionalMember {α : Type} (key : String) (toJson : α → Json) (a : Option α) :
    List (String × Json) :=
  (a.map fun a => (key, toJson a)).toList

def ToolAnnotations.toJson (a : ToolAnnotations) : Json :=
  .object (optionalMember "read_only_hint" .bool a.readOnlyHint ++
    optionalMember "destructive_hint" .bool a.destructiveHint ++
    optionalMember "idempotent_hint" .bool a.idempotentHint ++
    optionalMember "open_world_hint" .bool a.openWorldHint)

def ToolSchema.toJson (t : ToolSchema) : Json :=
  .object ([("name", .string t.name), ("description", .string t.description),
    ("input_schema", t.inputSchema)] ++
      optionalMember "annotations" ToolAnnotations.toJson t.annotations)

end Tako
