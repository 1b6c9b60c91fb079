import Tako.Core.Chat

/-!
# Body templates

`render_template` of `tako-providers/http-generic/src/lib.rs`: three strings of a template stand for
parts of the request, all other JSON is sent as it is.
-/

namespace Tako.Providers.HttpGeneric

variable (f32ToJson : Rat → Json) (req : ChatRequest)

/-- A string of a template. -/
def renderString : String → Json
  | "\x7b\x7b request \x7d\x7d" => req.toJson f32ToJson
  | "\x7b\x7b model \x7d\x7d" => .string req.model
  | "\x7b\x7b messages \x7d\x7d" => .array (req.messages.map Message.toJson)
  | s => .string s

mutual

def renderTemplate : Json → Json
  | .string s => renderString f32ToJson req s
  | .array items => .array (renderItems items)
  | .object members => .object (renderMembers members)
  | other => other

def renderItems : List Json → List Json
  | [] => []
  | v :: items => renderTemplate v :: renderItems items

def renderMembers : List (String × Json) → List (String × Json)
  | [] => []
  | (k, v) :: members => (k, renderTemplate v) :: renderMembers members

end

/-! ## The model in a body -/

mutual

/-- The template has a place for the request's model. -/
def namesModel : Json → Bool
  | .string s => s = "\x7b\x7b request \x7d\x7d" || s = "\x7b\x7b model \x7d\x7d"
  | .array items => itemsNameModel items
  | .object members => membersNameModel members
  | _ => false

def itemsNameModel : List Json → Bool
  | [] => false
  | v :: items => namesModel v || itemsNameModel items

def membersNameModel : List (String × Json) → Bool
  | [] => false
  | (_, v) :: members => namesModel v || membersNameModel members

end

variable {f32ToJson} {req : ChatRequest} {model : String}

theorem toJson_model_inj
    (h : req.toJson f32ToJson = ({ req with model } : ChatRequest).toJson f32ToJson) :
    req.model = model := by
  unfold ChatRequest.toJson at h
  simp only [Json.object.injEq, List.append_assoc, List.cons_append, List.nil_append,
    List.cons.injEq, Prod.mk.injEq, Json.string.injEq] at h
  exact h.1.2

theorem renderString_eq_iff (s : String) :
    renderString f32ToJson req s = renderString f32ToJson { req with model } s ↔
      namesModel (.string s) = false ∨ req.model = model := by
  unfold renderString
  rw [namesModel]
  split
  · exact ⟨fun h => .inr (toJson_model_inj h), fun h => by
      obtain h | rfl := h
      · cases h
      · rfl⟩
  · simp
  · simp
  · simp_all

mutual

/-- A body shows the request's model exactly if the template has a place for it. -/
theorem renderTemplate_eq_iff (t : Json) :
    renderTemplate f32ToJson req t = renderTemplate f32ToJson { req with model } t ↔
      namesModel t = false ∨ req.model = model := by
  cases t with
  | string s => exact renderString_eq_iff s
  | array items =>
    rw [renderTemplate, renderTemplate, namesModel, Json.array.injEq]
    exact renderItems_eq_iff items
  | object members =>
    rw [renderTemplate, renderTemplate, namesModel, Json.object.injEq]
    exact renderMembers_eq_iff members
  | _ => simp [renderTemplate, namesModel]

theorem renderItems_eq_iff (items : List Json) :
    renderItems f32ToJson req items = renderItems f32ToJson { req with model } items ↔
      itemsNameModel items = false ∨ req.model = model := by
  cases items with
  | nil => simp [renderItems, itemsNameModel]
  | cons v items =>
    rw [renderItems, renderItems, List.cons.injEq, renderTemplate_eq_iff v,
      renderItems_eq_iff items, itemsNameModel, Bool.or_eq_false_iff, and_or_right]

theorem renderMembers_eq_iff (members : List (String × Json)) :
    renderMembers f32ToJson req members = renderMembers f32ToJson { req with model } members ↔
      membersNameModel members = false ∨ req.model = model := by
  cases members with
  | nil => simp [renderMembers, membersNameModel]
  | cons e members =>
    obtain ⟨k, v⟩ := e
    rw [renderMembers, renderMembers, List.cons.injEq, Prod.mk.injEq, eq_self, true_and,
      renderTemplate_eq_iff v, renderMembers_eq_iff members, membersNameModel,
      Bool.or_eq_false_iff, and_or_right]

end

end Tako.Providers.HttpGeneric
