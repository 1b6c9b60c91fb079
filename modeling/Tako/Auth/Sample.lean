import Mathlib.Data.Bool.Basic
import Tako.Auth.Jsonwebtoken

/-!
# A small `jsonwebtoken`

An implementation of the documented behaviour for tokens that are listed in a table, with keys that
are known by their names. The examples of the resolvers run on it.
-/

namespace Tako.Auth.Sample

/-- The kinds of keys. -/
inductive Family where
  | hmac
  | rsa
  | ec
  | ed
  deriving DecidableEq

def family : Algorithm → Family
  | .hs256 | .hs384 | .hs512 => .hmac
  | .es256 | .es384 => .ec
  | .edDsa => .ed
  | _ => .rsa

structure Key where
  name : String
  family : Family
  deriving DecidableEq

structure Jwk where
  kid : Option String
  key : Key

/-- A token of the table: its header, the key that signed it, and its claims. -/
structure Token where
  header : Header
  key : Key
  claims : Claims

def names (s : String) : Json → Bool
  | .string t => t = s
  | .array items => items.any fun item => asStr item = some s
  | _ => false

def reads (name : String) : Json → Bool
  | .string _ => name ≠ "exp"
  | .array items => name ≠ "exp" && items.all fun item => (asStr item).isSome
  | .number (.posInt _) => name = "exp"
  | _ => false

def seconds : Json → Option Nat
  | .number (.posInt n) => some n
  | _ => none

def isEmptyArray : Json → Bool
  | .array items => items.isEmpty
  | _ => false

/-- The value of a claim, if it is there and can be read. -/
def readable (claims : Claims) (name : String) : Option Json :=
  (claims.lookup name).filter (reads name)

def expired (now : Nat) (v : Validation) (claims : Claims) : Bool :=
  ((claims.lookup "exp").bind seconds).any fun t => t + v.leeway < now

def issuerOk (v : Validation) (claims : Claims) : Bool :=
  v.iss.all fun allowed => (readable claims "iss").all fun value =>
    allowed.any fun i => names i value

def audienceOk (v : Validation) (claims : Claims) : Bool :=
  (readable claims "aud").all fun value =>
    match v.aud with
    | some allowed => allowed.any fun a => names a value
    | none => isEmptyArray value

def decode (table : String → Option Token) (now : Nat) (token : String) (key : Key)
    (v : Validation) : Except String Claims :=
  match table token with
  | none => .error "InvalidToken"
  | some t => do
    Except.rejectIf (¬(t.header.alg ∈ v.algorithms ∧ key.family = family t.header.alg))
      "InvalidAlgorithm"
    Except.rejectIf (key ≠ t.key) "InvalidSignature"
    Except.rejectIf (¬v.requiredSpecClaims.all fun name => (readable t.claims name).isSome)
      "Missing required claim"
    Except.rejectIf (expired now v t.claims) "ExpiredSignature"
    Except.rejectIf (¬issuerOk v t.claims) "InvalidIssuer"
    Except.rejectIf (¬audienceOk v t.claims) "InvalidAudience"
    .ok t.claims

/-- The crate, for a table of tokens. -/
def crate (table : String → Option Token) : Jsonwebtoken where
  Jwk := Jwk
  Key := Key
  keyId := Jwk.kid
  fromJwk jwk := .ok jwk.key
  decodeHeader token :=
    match table token with
    | some t => .ok t.header
    | none => .error "InvalidToken"
  decode := decode table
  payload token := (table token).map (·.claims)
  Verifies key alg token := ∃ t, table token = some t ∧ key = t.key ∧ alg = t.header.alg ∧
    key.family = family alg
  reads
  seconds

theorem names_iff {s : String} {value : Json} : names s value = true ↔ Names value s := by
  cases value with
  | string t => simp [names, Names]
  | array items =>
    simp only [names, Names, List.any_eq_true, decide_eq_true_eq, asStr_eq_some]
    constructor
    · rintro ⟨item, hitem, rfl⟩
      exact .inr ⟨items, rfl, hitem⟩
    · rintro (h | ⟨items', h, hs⟩)
      · cases h
      · cases h
        exact ⟨_, hs, rfl⟩
  | _ => simp [names, Names]

theorem isEmptyArray_iff {value : Json} : isEmptyArray value = true ↔ value = .array [] := by
  cases value <;> simp [isEmptyArray]

theorem readable_eq_some {claims : Claims} {name : String} {value : Json} :
    readable claims name = some value ↔
      claims.lookup name = some value ∧ reads name value = true :=
  Option.filter_eq_some_iff

theorem expired_eq_false {now : Nat} {v : Validation} {claims : Claims} :
    expired now v claims = false ↔ ∀ value t, claims.lookup "exp" = some value →
      seconds value = some t → now ≤ t + v.leeway := by
  unfold expired
  cases claims.lookup "exp" with
  | none => exact iff_of_true rfl fun _ _ h => by cases h
  | some value =>
    rw [Option.bind_some]
    cases hsec : seconds value with
    | none =>
      refine iff_of_true rfl fun value' t hvalue ht => ?_
      cases hvalue
      cases hsec.symm.trans ht
    | some t =>
      rw [Option.any_some, decide_eq_false_iff_not, Nat.not_lt]
      refine ⟨fun h value' t' hvalue ht => ?_, fun h => h value t rfl hsec⟩
      cases hvalue
      cases hsec.symm.trans ht
      exact h

theorem issuerOk_iff {v : Validation} {claims : Claims} :
    issuerOk v claims = true ↔ ∀ allowed ∈ v.iss, ∀ value, claims.lookup "iss" = some value →
      reads "iss" value = true → ∃ i ∈ allowed, Names value i := by
  unfold issuerOk
  simp only [Option.all_eq_true, List.any_eq_true, names_iff, Option.mem_def]
  refine forall₂_congr fun allowed _ => forall_congr' fun value => ?_
  rw [readable_eq_some, and_imp]

theorem audienceOk_iff {v : Validation} {claims : Claims} :
    audienceOk v claims = true ↔ ∀ value, claims.lookup "aud" = some value →
      reads "aud" value = true → (∀ allowed ∈ v.aud, ∃ a ∈ allowed, Names value a) ∧
        (v.aud = none → value = .array []) := by
  unfold audienceOk
  simp only [Option.all_eq_true]
  refine forall_congr' fun value => ?_
  rw [readable_eq_some, and_imp]
  cases v.aud with
  | none => simp [isEmptyArray_iff]
  | some allowed => simp [names_iff]

variable (table : String → Option Token)

theorem decode_ok_iff {now : Nat} {token : String} {key : Key} {v : Validation} {claims : Claims} :
    decode table now token key v = .ok claims ↔ ∃ t, table token = some t ∧
      (t.header.alg ∈ v.algorithms ∧ key.family = family t.header.alg) ∧ key = t.key ∧
      (∀ name ∈ v.requiredSpecClaims, (readable t.claims name).isSome) ∧
      expired now v t.claims = false ∧ issuerOk v t.claims = true ∧
      audienceOk v t.claims = true ∧ t.claims = claims := by
  unfold decode
  cases table token with
  | none => simp
  | some t => simp [Except.bind_eq_ok, Option.isSome_iff_ne_none]

theorem decode_unfit {now : Nat} {token : String} {key : Key} {v : Validation} {t : Token}
    (ht : table token = some t) (hfamily : key.family ≠ family t.header.alg) :
    decode table now token key v = .error "InvalidAlgorithm" := by
  simp [decode, ht, hfamily, Except.rejectIf, bind, Except.bind]

theorem decode_unsigned {now : Nat} {token : String} {key : Key} {v : Validation} {t : Token}
    (ht : table token = some t) (halg : t.header.alg ∈ v.algorithms)
    (hfamily : key.family = family t.header.alg) (hkey : key ≠ t.key) :
    decode table now token key v = .error "InvalidSignature" := by
  simp [decode, ht, halg, hfamily, hkey, Except.rejectIf, bind, Except.bind]

theorem decodeHeader_ok {token : String} {header : Header}
    (h : (crate table).decodeHeader token = .ok header) :
    ∃ t, table token = some t ∧ t.header = header := by
  simp only [crate] at h
  cases ht : table token with
  | none =>
    rw [ht] at h
    cases h
  | some t =>
    rw [ht] at h
    exact ⟨t, rfl, Except.ok.inj h⟩

theorem crate_documented : (crate table).Documented := by
  refine ⟨fun now token key v claims => ?_, fun _ => ⟨rfl, rfl⟩, fun value hread => ?_⟩
  · refine (decode_ok_iff table).trans ⟨?_, ?_⟩
    · rintro ⟨t, ht, ⟨halg, hfamily⟩, rfl, hrequired, hexp, hiss, haud, rfl⟩
      refine ⟨⟨t.header, ?_, halg, t, ht, rfl, rfl, hfamily⟩, ?_, fun name hname => ?_,
        expired_eq_false.1 hexp, issuerOk_iff.1 hiss, audienceOk_iff.1 haud⟩
      · simp only [crate, ht]
      · exact congrArg (Option.map (·.claims)) ht
      · obtain ⟨value, hvalue⟩ := Option.isSome_iff_exists.1 (hrequired name hname)
        exact ⟨value, readable_eq_some.1 hvalue⟩
    · rintro ⟨⟨header, -, halg, t, ht, hkey, hheader, hfamily⟩, hpayload, hrequired, hexp, hiss,
        haud⟩
      have hclaims : t.claims = claims := by
        have hpayload : (table token).map (·.claims) = some claims := hpayload
        rw [ht] at hpayload
        exact Option.some.inj hpayload
      rw [hheader] at halg hfamily
      subst hclaims
      refine ⟨t, ht, ⟨halg, hfamily⟩, hkey, fun name hname => ?_, expired_eq_false.2 hexp,
        issuerOk_iff.2 hiss, audienceOk_iff.2 haud, rfl⟩
      obtain ⟨value, hvalue⟩ := hrequired name hname
      exact Option.isSome_iff_exists.2 ⟨value, readable_eq_some.2 hvalue⟩
  · cases value with
    | number n =>
      cases n with
      | posInt n => exact ⟨n, rfl⟩
      | negInt | float => cases hread
    | _ => simp [crate, reads] at hread

end Tako.Auth.Sample
