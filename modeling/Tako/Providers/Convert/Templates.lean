import Mathlib.Data.List.Basic
import Tako.Providers.Convert.HttpGeneric

/-!
# Templates take a request in as data

A rendered body has the template's heads at the template's places, and the request's values at its
placeholders (`Substituted`). What stands inside a value comes from the request alone, so that the
bodies for two requests agree outside the placeholders (`renderTemplate_substituted`).
-/

namespace Tako

/-! ## Places in a JSON value -/

namespace Json

/-- The positions of items and members that lead from a value to one inside it. -/
abbrev Path := List Nat

/-- The values right inside a value, in order. -/
def children : Json → List Json
  | .array items => items
  | .object members => members.map (·.2)
  | _ => []

/-- What stands at a path. -/
def at? : Path → Json → Option Json
  | [], v => some v
  | i :: path, v => v.children[i]?.bind (at? path)

/-- A value without the values inside it. -/
inductive Head where
  | null
  | bool (b : Bool)
  | number (n : JsonNumber)
  | string (s : String)
  | array (length : Nat)
  | object (keys : List String)
  deriving DecidableEq

def head : Json → Head
  | .null => .null
  | .bool b => .bool b
  | .number n => .number n
  | .string s => .string s
  | .array items => .array items.length
  | .object members => .object (members.map (·.1))

@[simp] theorem at?_nil (v : Json) : at? [] v = some v := rfl

@[simp] theorem at?_cons (i : Nat) (path : Path) (v : Json) :
    at? (i :: path) v = v.children[i]?.bind (at? path) := rfl

@[simp] theorem children_string (s : String) : (Json.string s).children = [] := rfl

end Json

namespace Providers.HttpGeneric

open Json (Path at?)

/-! ## Placeholders -/

/-- The strings of a template that stand for a part of the request. -/
inductive Placeholder where
  | request
  | model
  | messages
  deriving DecidableEq

namespace Placeholder

def text : Placeholder → String
  | request => "\x7b\x7b request \x7d\x7d"
  | model => "\x7b\x7b model \x7d\x7d"
  | messages => "\x7b\x7b messages \x7d\x7d"

/-- The part of the request, as JSON. -/
def value (f32ToJson : Rat → Json) (req : ChatRequest) : Placeholder → Json
  | request => req.toJson f32ToJson
  | model => .string req.model
  | messages => .array (req.messages.map Message.toJson)

end Placeholder

/-- A placeholder stands at a path of the template. -/
def HasPlaceholder (t : Json) (path : Path) (ph : Placeholder) : Prop :=
  at? path t = some (.string ph.text)

/-- `body` is the template with each placeholder replaced by its value, and each value as it is:
* a placeholder's value stands in its place,
* everything else of the template stays in its place,
* and nothing else is in the body than what comes from there. -/
structure Substituted (value : Placeholder → Json) (t body : Json) : Prop where
  replaced : ∀ path ph, HasPlaceholder t path ph → at? path body = some (value ph)
  kept : ∀ path v, at? path t = some v → (∀ ph, ¬HasPlaceholder t path ph) →
    ∃ v', at? path body = some v' ∧ v'.head = v.head
  only : ∀ path v', at? path body = some v' →
    (∃ v, at? path t = some v ∧ v'.head = v.head) ∨
      ∃ place inside ph, path = place ++ inside ∧ HasPlaceholder t place ph ∧
        at? inside (value ph) = some v'

/-- The bodies agree at every path that is not at a placeholder or inside its value. -/
def AgreeOutside (t body body' : Json) : Prop :=
  ∀ path, (∀ place ph, place <+: path → ¬HasPlaceholder t place ph) →
    (at? path body).map Json.head = (at? path body').map Json.head

/-! ## One value -/

variable {f32ToJson : Rat → Json} {req : ChatRequest} {t v : Json} {path : Path}

theorem renderTemplate_placeholder (ph : Placeholder) :
    renderTemplate f32ToJson req (.string ph.text) = ph.value f32ToJson req := by
  cases ph <;> rfl

theorem renderString_of_ne {s : String} (h : ∀ ph : Placeholder, s ≠ ph.text) :
    renderString f32ToJson req s = .string s := by
  unfold renderString
  split
  · exact absurd rfl (h .request)
  · exact absurd rfl (h .model)
  · exact absurd rfl (h .messages)
  · rfl

theorem renderItems_eq_map (items : List Json) :
    renderItems f32ToJson req items = items.map (renderTemplate f32ToJson req) := by
  induction items with
  | nil => rfl
  | cons v items ih => rw [renderItems, List.map_cons, ih]

theorem renderMembers_eq_map (members : List (String × Json)) :
    renderMembers f32ToJson req members =
      members.map fun e => (e.1, renderTemplate f32ToJson req e.2) := by
  induction members with
  | nil => rfl
  | cons e members ih => rw [renderMembers, List.map_cons, ih]

/-- What is not a placeholder keeps its head, and its children are rendered one by one. -/
theorem renderTemplate_of_ne (h : ∀ ph : Placeholder, v ≠ .string ph.text) :
    (renderTemplate f32ToJson req v).head = v.head ∧
      (renderTemplate f32ToJson req v).children =
        v.children.map (renderTemplate f32ToJson req) := by
  cases v with
  | string s =>
    rw [renderTemplate, renderString_of_ne fun ph hs => h ph (hs ▸ rfl)]
    exact ⟨rfl, rfl⟩
  | array items => simp [renderTemplate, renderItems_eq_map, Json.head, Json.children]
  | object members => simp [renderTemplate, renderMembers_eq_map, Json.head, Json.children]
  | null | bool | number => exact ⟨rfl, rfl⟩

/-! ## All places -/

/-- A path of the template leads to the rendered value in the body. -/
theorem at?_renderTemplate (h : at? path t = some v) :
    at? path (renderTemplate f32ToJson req t) = some (renderTemplate f32ToJson req v) := by
  induction path generalizing t with
  | nil =>
    cases h
    rfl
  | cons i path ih =>
    rw [Json.at?_cons, Option.bind_eq_some_iff] at h
    obtain ⟨child, hchild, hv⟩ := h
    have hne : ∀ ph : Placeholder, t ≠ .string ph.text := by
      rintro ph rfl
      cases hchild
    rw [Json.at?_cons, (renderTemplate_of_ne hne).2, List.getElem?_map, hchild]
    exact ih hv

/-- A path of the body leads through the template, to its end or to a placeholder. -/
theorem at?_renderTemplate_cases (h : at? path (renderTemplate f32ToJson req t) = some v') :
    (∃ v, at? path t = some v ∧ v'.head = v.head) ∨
      ∃ place inside ph, path = place ++ inside ∧ HasPlaceholder t place ph ∧
        at? inside (Placeholder.value f32ToJson req ph) = some v' := by
  induction path generalizing t with
  | nil =>
    by_cases hph : ∃ ph : Placeholder, t = .string ph.text
    · obtain ⟨ph, rfl⟩ := hph
      rw [renderTemplate_placeholder] at h
      exact .inr ⟨[], [], ph, rfl, rfl, h⟩
    · cases h
      exact .inl ⟨t, rfl, (renderTemplate_of_ne (not_exists.1 hph)).1⟩
  | cons i path ih =>
    by_cases hph : ∃ ph : Placeholder, t = .string ph.text
    · obtain ⟨ph, rfl⟩ := hph
      rw [renderTemplate_placeholder] at h
      exact .inr ⟨[], i :: path, ph, rfl, rfl, h⟩
    · rw [Json.at?_cons, (renderTemplate_of_ne (not_exists.1 hph)).2, List.getElem?_map,
        Option.bind_map, Option.bind_eq_some_iff] at h
      obtain ⟨child, hchild, hrest⟩ := h
      rcases ih hrest with ⟨v, hv, hhead⟩ | ⟨place, inside, ph, rfl, hplace, hinside⟩
      · exact .inl ⟨v, by rw [Json.at?_cons, hchild]; exact hv, hhead⟩
      · refine .inr ⟨i :: place, inside, ph, rfl, ?_, hinside⟩
        rw [HasPlaceholder, Json.at?_cons, hchild]
        exact hplace

/-- Outside the placeholders the heads of a body are those of the template. -/
theorem head_at?_renderTemplate
    (h : ∀ place ph, place <+: path → ¬HasPlaceholder t place ph) :
    (at? path (renderTemplate f32ToJson req t)).map Json.head = (at? path t).map Json.head := by
  induction path generalizing t with
  | nil =>
    have hne : ∀ ph : Placeholder, t ≠ .string ph.text := fun ph ht =>
      h [] ph List.nil_prefix (congrArg some ht)
    exact congrArg some (renderTemplate_of_ne hne).1
  | cons i path ih =>
    have hne : ∀ ph : Placeholder, t ≠ .string ph.text := fun ph ht =>
      h [] ph List.nil_prefix (congrArg some ht)
    rw [Json.at?_cons, Json.at?_cons, (renderTemplate_of_ne hne).2, List.getElem?_map]
    cases hchild : t.children[i]? with
    | none => rfl
    | some child =>
      apply ih
      intro place ph hle hplace
      apply h (i :: place) ph (List.cons_prefix_cons.2 ⟨rfl, hle⟩)
      rw [HasPlaceholder, Json.at?_cons, hchild]
      exact hplace

/-- Rendering replaces each placeholder of the template by the request's value and does nothing
else, so that the bodies for two requests differ at the placeholders only. -/
theorem renderTemplate_substituted (f32ToJson : Rat → Json) (t : Json) (req : ChatRequest) :
    Substituted (Placeholder.value f32ToJson req) t (renderTemplate f32ToJson req t) ∧
      ∀ req', AgreeOutside t (renderTemplate f32ToJson req t) (renderTemplate f32ToJson req' t) := by
  refine ⟨⟨fun path ph hplace => ?_, fun path v hv hne => ?_, fun path v' h =>
    at?_renderTemplate_cases h⟩, fun req' path houtside => ?_⟩
  · rw [← renderTemplate_placeholder]
    exact at?_renderTemplate hplace
  · have hne' : ∀ ph : Placeholder, v ≠ .string ph.text := by
      rintro ph rfl
      exact hne ph hv
    exact ⟨_, at?_renderTemplate hv, (renderTemplate_of_ne hne').1⟩
  · rw [head_at?_renderTemplate houtside, head_at?_renderTemplate houtside]

/-- A message that looks like a placeholder stays a message. -/
example :
    renderTemplate (fun _ => .null) (.new "m" [.user Placeholder.model.text])
      (.string Placeholder.messages.text) =
      .array [.object [("role", .string "user"), ("content", .array [.object
        [("type", .string "text"), ("text", .string Placeholder.model.text)]])]] := rfl

end Providers.HttpGeneric

end Tako
