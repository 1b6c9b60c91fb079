import Tako.Core.Chat
import Tako.Core.Error
import Tako.Theory.Result

/-!
# Resolvers of bearer tokens

The trait `AuthResolver` (`tako-compat/src/auth/mod.rs`), the claims of a token as its principal,
and the answers of the HTTP endpoints that resolvers ask.
-/

namespace Tako.Auth

/-- `AuthResolver`, in a world that it may read and change. -/
structure AuthResolver (W : Type) where
  resolve : String → W → Result Principal × W

/-- `StaticTokens`, in any world. -/
def staticTokens {W : Type} (table : List (String × Principal)) : AuthResolver W where
  resolve token w :=
    (((table.lookup token).map Except.ok).getD (.error (.invalid "unknown bearer token")), w)

/-! ## Claims -/

/-- `Value::as_str`. -/
def asStr : Json → Option String
  | .string s => some s
  | _ => none

/-- `Value::as_array`. -/
def asArray : Json → Option (List Json)
  | .array items => some items
  | _ => none

/-- A `BTreeMap` of claims. -/
abbrev Claims := List (String × Json)

/-- The claims that make up the principal. -/
structure ClaimNames where
  tenant : String := "tenant_id"
  user : String := "sub"
  roles : String := "roles"

/-- A claim that has to be a string; errors begin with the resolver's name. -/
def stringClaim (resolver : String) (claims : Claims) (name : String) : Result String :=
  match (claims.lookup name).bind asStr with
  | some s => .ok s
  | none => .error (.invalid s!"{resolver}: missing or non-string claim `{name}`")

def rolesClaim (claims : Claims) (name : String) : List String :=
  (((claims.lookup name).bind asArray).map fun items => items.filterMap asStr).getD []

def principalFromClaims (resolver : String) (names : ClaimNames) (claims : Claims) :
    Result Principal := do
  let tenantId ← stringClaim resolver claims names.tenant
  let userId ← stringClaim resolver claims names.user
  .ok { tenantId, userId, roles := rolesClaim claims names.roles }

/-- The principal's fields are the token's claims. -/
structure PrincipalOf (names : ClaimNames) (claims : Claims) (p : Principal) : Prop where
  tenant : claims.lookup names.tenant = some (.string p.tenantId)
  user : claims.lookup names.user = some (.string p.userId)
  roles : p.roles = rolesClaim claims names.roles
  rest : p.traceId = none ∧ p.metadata = []

theorem asStr_eq_some {v : Json} {s : String} : asStr v = some s ↔ v = .string s := by
  cases v <;> simp [asStr]

theorem stringClaim_ok_iff {resolver : String} {claims : Claims} {name s : String} :
    stringClaim resolver claims name = .ok s ↔ claims.lookup name = some (.string s) := by
  unfold stringClaim
  cases hclaim : claims.lookup name with
  | none => exact iff_of_false nofun nofun
  | some v =>
    rw [Option.bind_some, Option.some.injEq, ← asStr_eq_some]
    cases asStr v with
    | none => exact iff_of_false nofun nofun
    | some t => rw [Except.ok.injEq, Option.some.injEq]

/-- There is a principal exactly if tenant and user are strings, and then it is the claims'. -/
theorem principalFromClaims_ok_iff {resolver : String} {names : ClaimNames} {claims : Claims}
    {p : Principal} :
    principalFromClaims resolver names claims = .ok p ↔ PrincipalOf names claims p := by
  unfold principalFromClaims
  rw [Except.bind_eq_ok]
  constructor
  · rintro ⟨tenantId, htenant, h⟩
    obtain ⟨userId, huser, h⟩ := Except.bind_eq_ok.1 h
    cases h
    exact ⟨stringClaim_ok_iff.1 htenant, stringClaim_ok_iff.1 huser, rfl, rfl, rfl⟩
  · rintro ⟨htenant, huser, hroles, htrace, hmeta⟩
    refine ⟨_, stringClaim_ok_iff.2 htenant,
      Except.bind_eq_ok.2 ⟨_, stringClaim_ok_iff.2 huser, ?_⟩⟩
    obtain ⟨tenantId, userId, roles, traceId, metadata⟩ := p
    cases hroles
    cases htrace
    cases hmeta
    rfl

/-! ## HTTP -/

/-- Why the body of an answer is not read. -/
inductive BodyError where
  | network (e : String)
  | malformed (e : String)

/-- An answer, whatever its status; `json` is its body as read. -/
structure Answer (α : Type) where
  status : Nat
  text : String := ""
  json : Except BodyError α

/-- What comes of a request: an answer, or the error of sending it. -/
abbrev Reply (α : Type) := Except String (Answer α)

namespace BodyError

def display : BodyError → String
  | .network e | .malformed e => e

end BodyError

namespace Answer

variable {α : Type} (a : Answer α)

def isSuccess : Bool := 200 ≤ a.status ∧ a.status < 300

/-- The statuses that `error_for_status` takes for errors. -/
def isStatusError : Bool := 400 ≤ a.status ∧ a.status < 600

def isServerError : Bool := 500 ≤ a.status ∧ a.status < 600

end Answer

end Tako.Auth
