import Tako.Core.Error
import Tako.Core.Types
import Tako.Rust.Str

/-!
# JSON-RPC 2.0 frames

The wire types of `tako-mcp/src/jsonrpc.rs`, with the text that `serde_json` writes for them: it is
compact, and a control character in a string is escaped, so a frame has no line break
(`request_singleLine`, `notification_singleLine`).
-/

namespace Tako.Mcp

/-! ## Frames from the server -/

structure RpcError where
  code : Int
  message : String
  data : Option Json := none

structure Response where
  jsonrpc : Option String := none
  id : Option UInt64 := none
  result : Option Json := none
  error : Option RpcError := none
  method : Option String := none
  params : Option Json := none

/-- What a request resolves with. -/
def Response.outcome (r : Response) : Result Json :=
  match r.error with
  | some err => .error (.transport s!"rpc error {err.code}: {err.message}")
  | none => .ok (r.result.getD .null)

/-- What the subscribers get for a notification. -/
def Response.notified (r : Response) (method : String) : Json :=
  .object [("method", .string method), ("params", r.params.getD .null)]

/-- `serde_json`: the text of a float, and the frame that a text is parsed to. -/
structure Serde where
  float : UInt64 → String
  response : String → Option Response

/-! ## Frames to the server -/

namespace Serde

variable (serde : Serde)

/-- A character of a string literal. -/
def escape (c : Char) : String :=
  if c.toNat = 0x22 then "\\\""
  else if c.toNat = 0x5c then "\\\\"
  else if c.toNat = 0x08 then "\\b"
  else if c.toNat = 0x09 then "\\t"
  else if c.toNat = 0x0a then "\\n"
  else if c.toNat = 0x0c then "\\f"
  else if c.toNat = 0x0d then "\\r"
  else if c.toNat < 0x20 then
    "\\u00" ++ String.ofList [Nat.digitChar (c.toNat / 16), Nat.digitChar (c.toNat % 16)]
  else c.toString

def quote (s : String) : String := "\"" ++ String.join (s.toList.map escape) ++ "\""

def number : JsonNumber → String
  | .posInt n => n.repr
  | .negInt n => "-" ++ n.natAbs.repr
  | .float bits => serde.float bits

mutual

/-- `serde_json::to_string`. -/
def text : Json → String
  | .null => "null"
  | .bool b => if b then "true" else "false"
  | .number n => serde.number n
  | .string s => quote s
  | .array items => "[" ++ ",".intercalate (texts items) ++ "]"
  | .object members => "\x7b" ++ ",".intercalate (memberTexts members) ++ "\x7d"

def texts : List Json → List String
  | [] => []
  | v :: items => text v :: texts items

def memberTexts : List (String × Json) → List String
  | [] => []
  | (k, v) :: members => (quote k ++ ":" ++ text v) :: memberTexts members

end

def request (id : UInt64) (method : String) (params : Json) : String :=
  serde.text (.object [("jsonrpc", .string "2.0"), ("id", .ofU64 id.toNat),
    ("method", .string method), ("params", params)])

def notification (method : String) (params : Json) : String :=
  serde.text (.object [("jsonrpc", .string "2.0"), ("method", .string method), ("params", params)])

end Serde

/-! ## Single lines -/

def SingleLine (s : String) : Prop := '\n' ∉ s.toList

instance (s : String) : Decidable (SingleLine s) := inferInstanceAs (Decidable ('\n' ∉ s.toList))

theorem SingleLine.asBytes (h : SingleLine s) : 10 ∉ Str.asBytes s := by
  have hcount := Str.count_asBytes (a := '\n') (by decide) s
  rw [List.count_eq_zero.2 h] at hcount
  exact List.count_eq_zero.1 hcount

theorem SingleLine.append (hs : SingleLine s) (ht : SingleLine t) : SingleLine (s ++ t) := by
  unfold SingleLine at *
  rw [String.toList_append, List.mem_append]
  exact fun h => h.elim hs ht

theorem SingleLine.join {l : List String} (h : ∀ t ∈ l, SingleLine t) :
    SingleLine (String.join l) := by
  unfold SingleLine at *
  rw [String.toList_join, List.mem_flatMap]
  exact fun ⟨t, ht, hc⟩ => h t ht hc

theorem SingleLine.intercalate {l : List String} (hs : SingleLine s) (h : ∀ t ∈ l, SingleLine t) :
    SingleLine (s.intercalate l) := by
  induction l with
  | nil => exact List.not_mem_nil
  | cons t l ih =>
    cases l with
    | nil =>
      rw [String.intercalate_singleton]
      exact h t List.mem_cons_self
    | cons t' l =>
      rw [String.intercalate_cons_cons]
      exact ((h t List.mem_cons_self).append hs).append
        (ih fun u hu => h u (List.mem_cons_of_mem t hu))

theorem singleLine_repr (n : Nat) : SingleLine n.repr := by
  unfold SingleLine
  rw [Nat.toList_repr]
  intro h
  exact absurd (Nat.isDigit_of_mem_toDigits (by decide) (by decide) h) (by decide)

theorem digitChar_ne_newline (h : n < 16) : Nat.digitChar n ≠ '\n' := by
  decide +revert

namespace Serde

variable {serde : Serde}

theorem singleLine_escape (c : Char) : SingleLine (escape c) := by
  unfold escape
  split; · decide
  split; · decide
  split; · decide
  split; · decide
  split; · decide
  next hbreak =>
  split; · decide
  split; · decide
  split
  · next hcontrol =>
    refine .append (by decide) fun h => ?_
    rw [String.toList_ofList] at h
    rcases List.mem_cons.1 h with h | h
    · exact digitChar_ne_newline (by omega) h.symm
    · exact digitChar_ne_newline (by omega) (List.mem_singleton.1 h).symm
  · intro h
    rw [Char.toString_eq_singleton, String.toList_singleton, List.mem_singleton] at h
    exact hbreak (h ▸ rfl)

theorem singleLine_quote (s : String) : SingleLine (quote s) := by
  refine .append (.append (by decide) (.join fun t ht => ?_)) (by decide)
  obtain ⟨c, -, rfl⟩ := List.mem_map.1 ht
  exact singleLine_escape c

/-- The text of a float has no line break. -/
def SingleLineFloats (serde : Serde) : Prop := ∀ bits, SingleLine (serde.float bits)

theorem singleLine_number (h : serde.SingleLineFloats) (n : JsonNumber) :
    SingleLine (serde.number n) := by
  cases n with
  | posInt n => exact singleLine_repr n
  | negInt n => exact .append (by decide) (singleLine_repr _)
  | float bits => exact h bits

mutual

theorem singleLine_text (h : serde.SingleLineFloats) : ∀ v, SingleLine (serde.text v)
  | .null => by rw [text]; decide
  | .bool b => by rw [text]; cases b <;> decide
  | .number n => by rw [text]; exact singleLine_number h n
  | .string s => by rw [text]; exact singleLine_quote s
  | .array items => by
    rw [text]
    exact .append (.append (by decide) (.intercalate (by decide) (singleLine_texts h items)))
      (by decide)
  | .object members => by
    rw [text]
    exact .append (.append (by decide) (.intercalate (by decide) (singleLine_memberTexts h members)))
      (by decide)

theorem singleLine_texts (h : serde.SingleLineFloats) :
    ∀ items, ∀ t ∈ serde.texts items, SingleLine t
  | [], _, ht => nomatch ht
  | v :: items, t, ht => by
    rw [texts] at ht
    rcases List.mem_cons.1 ht with rfl | ht
    · exact singleLine_text h v
    · exact singleLine_texts h items t ht

theorem singleLine_memberTexts (h : serde.SingleLineFloats) :
    ∀ members, ∀ t ∈ serde.memberTexts members, SingleLine t
  | [], _, ht => nomatch ht
  | (k, v) :: members, t, ht => by
    rw [memberTexts] at ht
    rcases List.mem_cons.1 ht with rfl | ht
    · exact .append (.append (singleLine_quote k) (by decide)) (singleLine_text h v)
    · exact singleLine_memberTexts h members t ht

end

theorem request_singleLine (h : serde.SingleLineFloats) (id : UInt64) (method : String)
    (params : Json) : SingleLine (serde.request id method params) := singleLine_text h _

theorem notification_singleLine (h : serde.SingleLineFloats) (method : String) (params : Json) :
    SingleLine (serde.notification method params) := singleLine_text h _

end Serde

end Tako.Mcp
