import Tako.Auth.Basic
import Tako.Theory.Traced

/-!
# Chains of resolvers

`ChainedAuthResolver` (`tako-compat/src/auth/chained.rs`) asks its children one after another. A
child's error goes on to the next one, unless a policy says that it ends the chain.
-/

namespace Tako.Auth

inductive ShortCircuitPolicy where
  | none
  | transportOnly
  | allInfrastructure
  deriving DecidableEq

inductive ChildShortCircuitPolicy where
  | inherit
  | alwaysFallThrough
  | transportOnly
  | allInfrastructure
  deriving DecidableEq

structure ChildEntry (W : Type) where
  resolver : AuthResolver W
  policy : ChildShortCircuitPolicy

structure ChainedAuthResolver (W : Type) where
  children : List (ChildEntry W) := []
  shortCircuitPolicy : ShortCircuitPolicy := .none

def isTransport : TakoError → Bool
  | .transport _ => true
  | _ => false

def isInfrastructureError : TakoError → Bool
  | .transport _ | .rateLimited _ | .circuitOpen | .budgetExhausted _ => true
  | _ => false

def chainWideShortCircuit : ShortCircuitPolicy → TakoError → Bool
  | .none, _ => false
  | .transportOnly, e => isTransport e
  | .allInfrastructure, e => isInfrastructureError e

namespace ChainedAuthResolver

variable {W : Type}

def then_ (chain : ChainedAuthResolver W) (child : AuthResolver W) : ChainedAuthResolver W :=
  { chain with children := chain.children ++ [⟨child, .inherit⟩] }

def thenWithShortCircuit (chain : ChainedAuthResolver W) (child : AuthResolver W)
    (policy : ChildShortCircuitPolicy) : ChainedAuthResolver W :=
  { chain with children := chain.children ++ [⟨child, policy⟩] }

def withShortCircuitOnTransportError (chain : ChainedAuthResolver W) : ChainedAuthResolver W :=
  { chain with shortCircuitPolicy := .transportOnly }

def withShortCircuitOnInfrastructureErrors (chain : ChainedAuthResolver W) :
    ChainedAuthResolver W :=
  { chain with shortCircuitPolicy := .allInfrastructure }

/-- Whether an error of a child with the policy ends the chain. -/
def shouldShortCircuit (wide : ShortCircuitPolicy) : ChildShortCircuitPolicy → TakoError → Bool
  | .inherit, e => chainWideShortCircuit wide e
  | .alwaysFallThrough, _ => false
  | .transportOnly, e => isTransport e
  | .allInfrastructure, e => isInfrastructureError e

/-- The trace has what the children returned. -/
abbrev M (W : Type) := Traced W (Result Principal) TakoError

def ask (entry : ChildEntry W) (token : String) : M W Principal :=
  .call (entry.resolver.resolve token) fun _ r => r

/-- The loop over the children, with the last error. -/
def tryChildren (wide : ShortCircuitPolicy) (token : String) :
    Option TakoError → List (ChildEntry W) → M W Principal
  | lastErr, [] =>
    .throw (lastErr.getD (.invalid "chained auth: unreachable empty-error path"))
  | _, entry :: children => do
    match ← (ask entry token).attempt with
    | .ok p => pure p
    | .error e =>
      if shouldShortCircuit wide entry.policy e then .throw e
      else tryChildren wide token (some e) children

def resolve (chain : ChainedAuthResolver W) (token : String) : M W Principal :=
  if chain.children.isEmpty then .throw (.invalid "chained auth: no resolvers configured")
  else tryChildren chain.shortCircuitPolicy token none chain.children

/-- The policy lets an error of the transport end the chain. -/
def ShortCircuitsTransport (wide : ShortCircuitPolicy) (policy : ChildShortCircuitPolicy) : Prop :=
  ∀ msg, shouldShortCircuit wide policy (.transport msg) = true

/-- A bad credential never does. -/
theorem not_shortCircuits_invalid (wide : ShortCircuitPolicy) (policy : ChildShortCircuitPolicy)
    (msg : String) : shouldShortCircuit wide policy (.invalid msg) = false := by
  cases policy with
  | inherit => cases wide <;> rfl
  | _ => rfl

/-- All children fail, with errors that go on to the next one. -/
inductive FallThrough (wide : ShortCircuitPolicy) (token : String) :
    List (ChildEntry W) → W → W → Prop
  | nil : FallThrough wide token [] w w
  | cons : (entry.resolver.resolve token w).1 = .error e →
    shouldShortCircuit wide entry.policy e = false →
    FallThrough wide token rest (entry.resolver.resolve token w).2 w' →
    FallThrough wide token (entry :: rest) w w'

variable {wide : ShortCircuitPolicy} {token : String} {entry : ChildEntry W}
  {before after : List (ChildEntry W)} {w w' : W}

/-- The three ways in which a child goes on. -/
theorem tryChildren_ok {lastErr : Option TakoError} {p : Principal}
    (h : (entry.resolver.resolve token w).1 = .ok p) :
    (tryChildren wide token lastErr (entry :: after)).run w =
      ⟨.ok p, (entry.resolver.resolve token w).2, [.ok p]⟩ := by
  have hask : ((ask entry token).attempt.run w).result = .ok (.ok p) := congrArg Except.ok h
  rw [tryChildren, Traced.run_bind_ok _ hask]
  simp only [ask, Traced.call, Traced.attempt, h, Traced.run_pure, List.append_nil]

theorem tryChildren_stop {lastErr : Option TakoError} {e : TakoError}
    (h : (entry.resolver.resolve token w).1 = .error e)
    (hstop : shouldShortCircuit wide entry.policy e = true) :
    (tryChildren wide token lastErr (entry :: after)).run w =
      ⟨.error e, (entry.resolver.resolve token w).2, [.error e]⟩ := by
  have hask : ((ask entry token).attempt.run w).result = .ok (.error e) := congrArg Except.ok h
  rw [tryChildren, Traced.run_bind_ok _ hask]
  simp only [ask, Traced.call, Traced.attempt, h, hstop, if_true, Traced.throw, List.append_nil]

theorem tryChildren_next {lastErr : Option TakoError} {e : TakoError}
    (h : (entry.resolver.resolve token w).1 = .error e)
    (hnext : shouldShortCircuit wide entry.policy e = false) :
    (tryChildren wide token lastErr (entry :: after)).run w =
      { (tryChildren wide token (some e) after).run (entry.resolver.resolve token w).2 with
        trace := .error e ::
          ((tryChildren wide token (some e) after).run (entry.resolver.resolve token w).2).trace } := by
  have hask : ((ask entry token).attempt.run w).result = .ok (.error e) := congrArg Except.ok h
  rw [tryChildren, Traced.run_bind_ok _ hask]
  simp [ask, Traced.call, Traced.attempt, h, hnext]

theorem tryChildren_asks (wide : ShortCircuitPolicy) (token : String) (lastErr : Option TakoError)
    (entry : ChildEntry W) (after : List (ChildEntry W)) (w : W) :
    0 < ((tryChildren wide token lastErr (entry :: after)).run w).trace.length := by
  cases h : (entry.resolver.resolve token w).1 with
  | ok p =>
    rw [tryChildren_ok h]
    exact Nat.zero_lt_one
  | error e =>
    cases hstop : shouldShortCircuit wide entry.policy e with
    | true =>
      rw [tryChildren_stop h hstop]
      exact Nat.zero_lt_one
    | false =>
      rw [tryChildren_next h hstop]
      exact Nat.succ_pos _

/-- Children that fall through leave the rest of the chain to the ones after them. -/
theorem FallThrough.run (h : FallThrough wide token before w w') (after : List (ChildEntry W))
    (lastErr : Option TakoError) :
    ∃ last l, l.length = before.length ∧
      (tryChildren wide token lastErr (before ++ after)).run w =
        { (tryChildren wide token last after).run w' with
          trace := l ++ ((tryChildren wide token last after).run w').trace } := by
  induction h generalizing lastErr with
  | nil => exact ⟨lastErr, [], rfl, rfl⟩
  | @cons e _ _ _ _ herr hnext _ ih =>
    obtain ⟨last, l, hlength, hrun⟩ := ih (some e)
    refine ⟨last, .error e :: l, congrArg Nat.succ hlength, ?_⟩
    rw [List.cons_append, tryChildren_next herr hnext, hrun]
    rfl

/-- Behind children that fall through, an error that ends the chain is its result. -/
theorem resolve_stop {chain : ChainedAuthResolver W} {e : TakoError}
    (hchildren : chain.children = before ++ entry :: after)
    (hbefore : FallThrough chain.shortCircuitPolicy token before w w')
    (herr : (entry.resolver.resolve token w').1 = .error e)
    (hstop : shouldShortCircuit chain.shortCircuitPolicy entry.policy e = true) :
    ((chain.resolve token).run w).result = .error e ∧
      ((chain.resolve token).run w).trace.length = before.length + 1 := by
  obtain ⟨last, l, hlength, hrun⟩ := hbefore.run (entry :: after) none
  have hne : chain.children.isEmpty = false := by rw [hchildren]; cases before <;> rfl
  rw [resolve, hne, if_neg Bool.false_ne_true, hchildren, hrun, tryChildren_stop herr hstop]
  exact ⟨rfl, by rw [List.length_append, hlength]; rfl⟩

/-- Any other error is at most the result of a chain that ends with the child. -/
theorem resolve_next {chain : ChainedAuthResolver W} {e : TakoError}
    (hchildren : chain.children = before ++ entry :: after)
    (hbefore : FallThrough chain.shortCircuitPolicy token before w w')
    (herr : (entry.resolver.resolve token w').1 = .error e)
    (hnext : shouldShortCircuit chain.shortCircuitPolicy entry.policy e = false) :
    ((chain.resolve token).run w).result = .error e ∨
      before.length + 1 < ((chain.resolve token).run w).trace.length := by
  obtain ⟨last, l, hlength, hrun⟩ := hbefore.run (entry :: after) none
  have hne : chain.children.isEmpty = false := by rw [hchildren]; cases before <;> rfl
  rw [resolve, hne, if_neg Bool.false_ne_true, hchildren, hrun, tryChildren_next herr hnext]
  cases after with
  | nil => exact .inl rfl
  | cons entry' after' =>
    refine .inr ?_
    rw [List.length_append, hlength, List.length_cons]
    have hpos := tryChildren_asks chain.shortCircuitPolicy token (some e) entry' after'
      (entry.resolver.resolve token w').2
    omega

end ChainedAuthResolver

end Tako.Auth
