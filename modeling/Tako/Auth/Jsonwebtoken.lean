import Tako.Auth.Basic

/-!
# The crate `jsonwebtoken`

The resolvers hand a token, a key and a `Validation` to `jsonwebtoken`. Here are its data types, and
what it documents of `decode`: which tokens it accepts, and how it words a refusal.
-/

namespace Tako.Auth

inductive Algorithm where
  | hs256
  | hs384
  | hs512
  | es256
  | es384
  | rs256
  | rs384
  | rs512
  | ps256
  | ps384
  | ps512
  | edDsa
  deriving DecidableEq, Repr

/-- `format!("{:?}", alg)`. -/
def Algorithm.debug : Algorithm → String
  | hs256 => "HS256"
  | hs384 => "HS384"
  | hs512 => "HS512"
  | es256 => "ES256"
  | es384 => "ES384"
  | rs256 => "RS256"
  | rs384 => "RS384"
  | rs512 => "RS512"
  | ps256 => "PS256"
  | ps384 => "PS384"
  | ps512 => "PS512"
  | edDsa => "EdDSA"

structure Header where
  alg : Algorithm
  kid : Option String := none

structure Validation where
  requiredSpecClaims : List String
  /-- In seconds. -/
  leeway : Nat
  aud : Option (List String)
  iss : Option (List String)
  algorithms : List Algorithm

namespace Validation

/-- `Validation::new`. -/
def new (alg : Algorithm) : Validation where
  requiredSpecClaims := ["exp"]
  leeway := 60
  aud := none
  iss := none
  algorithms := [alg]

def setAudience (v : Validation) (audience : List String) : Validation :=
  { v with aud := some audience }

def setIssuer (v : Validation) (issuer : List String) : Validation :=
  { v with iss := some issuer }

end Validation

/-- The crate. The times are seconds of the Unix clock, and an error is its text. -/
structure Jsonwebtoken where
  Jwk : Type
  Key : Type
  keyId : Jwk → Option String
  fromJwk : Jwk → Except String Key
  decodeHeader : String → Except String Header
  decode : Nat → String → Key → Validation → Except String Claims
  /-- The claims that are written in a token. -/
  payload : String → Option Claims
  /-- The token's signature is one of the key under the algorithm. -/
  Verifies : Key → Algorithm → String → Prop
  /-- A registered claim has a value that can be read. -/
  reads : String → Json → Bool
  seconds : Json → Option Nat

/-- The claim is the text, or lists it. -/
def Names (value : Json) (s : String) : Prop :=
  value = .string s ∨ ∃ items, value = .array items ∧ .string s ∈ items

namespace Jsonwebtoken

variable (J : Jsonwebtoken)

/-- What makes a token acceptable. A claim that is not required is only looked at if it is there
and can be read. -/
structure Accepts (now : Nat) (token : String) (key : J.Key) (v : Validation) (claims : Claims) :
    Prop where
  signature : ∃ header, J.decodeHeader token = .ok header ∧ header.alg ∈ v.algorithms ∧
    J.Verifies key header.alg token
  payload : J.payload token = some claims
  required : ∀ name ∈ v.requiredSpecClaims,
    ∃ value, claims.lookup name = some value ∧ J.reads name value = true
  exp : ∀ value t, claims.lookup "exp" = some value → J.seconds value = some t → now ≤ t + v.leeway
  iss : ∀ allowed ∈ v.iss, ∀ value, claims.lookup "iss" = some value → J.reads "iss" value = true →
    ∃ i ∈ allowed, Names value i
  aud : ∀ value, claims.lookup "aud" = some value → J.reads "aud" value = true →
    (∀ allowed ∈ v.aud, ∃ a ∈ allowed, Names value a) ∧ (v.aud = none → value = .array [])

/-- The documented behaviour. -/
structure Documented : Prop where
  decode : ∀ now token key v claims,
    J.decode now token key v = .ok claims ↔ J.Accepts now token key v claims
  reads_string : ∀ s, J.reads "iss" (.string s) = true ∧ J.reads "aud" (.string s) = true
  reads_exp : ∀ value, J.reads "exp" value = true → ∃ t, J.seconds value = some t

end Jsonwebtoken

end Tako.Auth
