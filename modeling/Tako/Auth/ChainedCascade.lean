import Tako.Auth.Chained
import Tako.Theory.Cascade

/-!
# The cascade of a chain of resolvers

`resolve` asks the children in order, up to the first one that succeeds or whose error its effective
policy lets end the chain. Wider policies let a chain end no later, so they never turn an error into
a principal (`Wider.error`).
-/

namespace Tako.Auth

/-- From no error to all errors of the infrastructure. -/
def ShortCircuitPolicy.width : ShortCircuitPolicy → Nat
  | .none => 0
  | .transportOnly => 1
  | .allInfrastructure => 2

/-- The policy of a child: its own, or the chain's where it inherits that. -/
def ChildShortCircuitPolicy.effective (wide : ShortCircuitPolicy) :
    ChildShortCircuitPolicy → ShortCircuitPolicy
  | .inherit => wide
  | .alwaysFallThrough => .none
  | .transportOnly => .transportOnly
  | .allInfrastructure => .allInfrastructure

theorem isInfrastructureError_of_isTransport {e : TakoError} (h : isTransport e = true) :
    isInfrastructureError e = true := by
  cases e with
  | transport _ => rfl
  | _ => cases h

theorem chainWideShortCircuit_mono {policy policy' : ShortCircuitPolicy}
    (h : policy.width ≤ policy'.width) {e : TakoError}
    (he : chainWideShortCircuit policy e = true) : chainWideShortCircuit policy' e = true := by
  cases policy with
  | none => cases he
  | transportOnly =>
    cases policy' with
    | none => cases h
    | transportOnly => exact he
    | allInfrastructure => exact isInfrastructureError_of_isTransport he
  | allInfrastructure =>
    cases policy' with
    | none => cases h
    | transportOnly => exact absurd h (by decide)
    | allInfrastructure => exact he

namespace ChainedAuthResolver

variable {W : Type}

theorem shouldShortCircuit_eq (wide : ShortCircuitPolicy) (policy : ChildShortCircuitPolicy)
    (e : TakoError) :
    shouldShortCircuit wide policy e = chainWideShortCircuit (policy.effective wide) e := by
  cases policy <;> rfl

/-- The result of a child ends the chain. -/
def decides (wide : ShortCircuitPolicy) (entry : ChildEntry W) : Result Principal → Bool
  | .ok _ => true
  | .error e => chainWideShortCircuit (entry.policy.effective wide) e

/-- The loop is a cascade. -/
theorem tryChildren_eq_poll (wide : ShortCircuitPolicy) (token : String)
    (lastErr : Option TakoError) (children : List (ChildEntry W)) :
    tryChildren wide token lastErr children =
      Cascade.poll (ask · token) (decides wide)
        (.error (lastErr.getD (.invalid "chained auth: unreachable empty-error path")))
        children := by
  induction children generalizing lastErr with
  | nil => rfl
  | cons entry children ih =>
    rw [tryChildren, Cascade.poll]
    refine congrArg _ (funext fun r => ?_)
    cases r with
    | ok p => rfl
    | error e =>
      cases he : chainWideShortCircuit (entry.policy.effective wide) e with
      | true => simp only [decides, shouldShortCircuit_eq, he, if_true, Traced.ofExcept]
      | false => simp only [decides, shouldShortCircuit_eq, he, if_neg Bool.false_ne_true, ih,
          Option.getD_some]

/-- What the children do when all of them are asked, in the order in which they were added. -/
def outcomes (chain : ChainedAuthResolver W) (token : String) (w : W) :
    List (ChildEntry W × Outcome W (Result Principal) TakoError Principal) :=
  Cascade.outcomes (ask · token) chain.children w

/-- The outcome of a child ends the chain. -/
def Ends (chain : ChainedAuthResolver W)
    (o : ChildEntry W × Outcome W (Result Principal) TakoError Principal) : Bool :=
  decides chain.shortCircuitPolicy o.1 o.2.result

/-- The run asks the children in order up to the first one that ends the chain, and has its result
and leaves its world; if none does, the last one's. -/
structure CascadeLaw (chain : ChainedAuthResolver W) (token : String) (w : W)
    (o : Outcome W (Result Principal) TakoError Principal) : Prop where
  everyone : (chain.outcomes token w).map Prod.fst = chain.children
  trace : o.trace = ((chain.outcomes token w).take
    ((chain.outcomes token w).findIdx chain.Ends + 1)).map (·.2.result)
  left : (o.result, o.world) =
    ((((chain.outcomes token w).find? chain.Ends).or (chain.outcomes token w).getLast?).map
      fun o => (o.2.result, o.2.world)).getD
        (.error (.invalid "chained auth: no resolvers configured"), w)

/-- A chain without children has an error of its own. -/
theorem resolve_eq_poll (chain : ChainedAuthResolver W) (token : String) :
    chain.resolve token = Cascade.poll (ask · token) (decides chain.shortCircuitPolicy)
      (.error (.invalid "chained auth: no resolvers configured")) chain.children := by
  rw [resolve]
  cases chain.children with
  | nil => rfl
  | cons entry children =>
    rw [List.isEmpty_cons, if_neg Bool.false_ne_true, tryChildren_eq_poll]
    rfl

theorem resolve_cascadeLaw (chain : ChainedAuthResolver W) (token : String) (w : W) :
    chain.CascadeLaw token w ((chain.resolve token).run w) where
  everyone := Cascade.map_fst_outcomes _ _ _
  trace := by
    rw [resolve_eq_poll, Cascade.trace_poll_map (fun _ r => r) fun _ _ => rfl,
      Cascade.upTo_eq_take]
    rfl
  left := by
    rw [resolve_eq_poll, Cascade.left_poll]
    rfl

/-! ## Wider policies -/

/-- A child with the same resolver and no narrower policy. -/
def WiderChild (wide wide' : ShortCircuitPolicy) (entry entry' : ChildEntry W) : Prop :=
  entry.resolver = entry'.resolver ∧
    (entry.policy.effective wide).width ≤ (entry'.policy.effective wide').width

/-- Wider policies of the chain or of its children. -/
def Wider (chain chain' : ChainedAuthResolver W) : Prop :=
  List.Forall₂ (WiderChild chain.shortCircuitPolicy chain'.shortCircuitPolicy) chain.children
    chain'.children

/-- A wider policy of the chain is one for each child that inherits it. -/
theorem wider_of_width_le (chain : ChainedAuthResolver W) {policy : ShortCircuitPolicy}
    (h : chain.shortCircuitPolicy.width ≤ policy.width) :
    Wider chain { chain with shortCircuitPolicy := policy } := by
  refine List.forall₂_same.mpr fun entry _ => ⟨rfl, ?_⟩
  cases entry.policy with
  | inherit => exact h
  | _ => exact Nat.le_refl _

theorem WiderChild.stricter {wide wide' : ShortCircuitPolicy} {entry entry' : ChildEntry W}
    (h : WiderChild wide wide' entry entry') (token : String) :
    Cascade.Stricter (ask · token) (decides wide) (ask · token) (decides wide') entry entry' := by
  obtain ⟨hresolver, hwidth⟩ := h
  refine ⟨?_, fun e he => chainWideShortCircuit_mono hwidth he⟩
  change ask entry token = ask entry' token
  rw [ask, hresolver, ask]

theorem Wider.error {chain chain' : ChainedAuthResolver W} (h : Wider chain chain')
    {token : String} {w : W} {e : TakoError}
    (he : ((chain.resolve token).run w).result = .error e) :
    ∃ e', ((chain'.resolve token).run w).result = .error e' := by
  cases hr : ((chain'.resolve token).run w).result with
  | error e' => exact ⟨e', rfl⟩
  | ok p =>
    rw [resolve_eq_poll] at he hr
    rw [Cascade.result_poll_of_stricter (h.imp fun _ _ hchild => hchild.stricter token)
      (fun _ _ => rfl) (fun _ _ => rfl) (fun _ h => by cases h) hr] at he
    cases he

/-- The law of the cascade, and what wider policies do to its errors. -/
theorem resolve_law (chain : ChainedAuthResolver W) (token : String) (w : W) :
    chain.CascadeLaw token w ((chain.resolve token).run w) ∧
      ∀ chain', Wider chain chain' → ∀ e, ((chain.resolve token).run w).result = .error e →
        ∃ e', ((chain'.resolve token).run w).result = .error e' :=
  ⟨chain.resolve_cascadeLaw token w, fun _ h _ he => h.error he⟩

end ChainedAuthResolver

end Tako.Auth
