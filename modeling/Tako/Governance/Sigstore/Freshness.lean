import Mathlib
import Tako.Governance.Sigstore.Acceptance
import Tako.Theory.Interleaving

/-!
# The freshness anchor under concurrent verification

Any number of `verify_bundle` calls on one `KeylessVerifier`. The anchor is the only state they
share; a call touches it in one atomic load and in its compare-exchange steps, and
`compare_exchange_weak` may fail with the current value in hand even when it is the expected one.
What a call does alone is `verifyBundle` (`callStep_alone`).
-/

namespace Tako.Sigstore

open Except Interleaving

variable {Key Re : Type} {D : Deps Key Re} (v : KeylessVerifier D)

/-! ## One call as a state machine -/

/-- The arguments of a call, and the clock it reads. -/
structure Call where
  clock : Nat → Time
  manifest : Bytes
  bundleJson : Bytes

/-- Where a call of `verify_bundle` stands. A call past the anchor carries the tree size that
passed there, if its bundle has one. -/
inductive CallState where
  | start
  | load (treeSize : Nat)
  | exchange (treeSize prev : Nat)
  | parse (passed : Option Nat)
  | done (result : Result Catalogue) (passed : Option Nat)

def CallState.passed : CallState → Option Nat
  | .parse passed | .done _ passed => passed
  | _ => none

def CallState.isDone : CallState → Prop
  | .done .. => True
  | _ => False

/-- The steps of a call on the anchor and its own state. -/
inductive CallStep (call : Call) : Nat → CallState → Nat → CallState → Prop
  | reject : v.checkBundle call.clock call.manifest call.bundleJson = .error e →
    CallStep call anchor .start anchor (.done (.error e) none)
  | skip : v.checkBundle call.clock call.manifest call.bundleJson = .ok none →
    CallStep call anchor .start anchor (.parse none)
  | check : v.checkBundle call.clock call.manifest call.bundleJson = .ok (some treeSize) →
    CallStep call anchor .start anchor (.load treeSize)
  | load :
    CallStep call anchor (.load treeSize) anchor (.exchange treeSize anchor)
  | stale : checkFresh treeSize prev = .error e →
    CallStep call anchor (.exchange treeSize prev) anchor (.done (.error e) none)
  | advance : checkFresh treeSize prev = .ok () →
    CallStep call prev (.exchange treeSize prev) (max treeSize prev) (.parse (some treeSize))
  | retry : checkFresh treeSize prev = .ok () →
    CallStep call anchor (.exchange treeSize prev) anchor (.exchange treeSize anchor)
  | parse :
    CallStep call anchor (.parse passed) anchor (.done (parseManifest D call.manifest) passed)

variable {v}

theorem checkFresh_eq_ok {u : Unit} : checkFresh treeSize prev = .ok u ↔ prev ≤ treeSize := by
  simp [checkFresh]

/-- A step changes the anchor only by an exchange, which sets it to a tree size not below it. -/
theorem CallStep.anchor_cases (h : CallStep v call anchor s anchor' s') :
    (anchor' = anchor ∧ s'.passed = s.passed) ∨
      ∃ treeSize, s.passed = none ∧ s'.passed = some treeSize ∧ anchor ≤ treeSize ∧
        anchor' = treeSize := by
  cases h with
  | advance hf =>
    have hle := checkFresh_eq_ok.1 hf
    exact .inr ⟨_, rfl, rfl, hle, Nat.max_eq_left hle⟩
  | reject | skip | check | load | stale | retry | parse => exact .inl ⟨rfl, rfl⟩

theorem CallStep.anchor_le (h : CallStep v call anchor s anchor' s') : anchor ≤ anchor' := by
  rcases h.anchor_cases with ⟨rfl, -⟩ | ⟨treeSize, -, -, hle, rfl⟩
  · exact Nat.le_refl _
  · exact hle

/-- What a call puts into the anchor. -/
def CallState.contribution (s : CallState) : Nat := s.passed.getD 0

theorem CallStep.contribution (h : CallStep v call anchor s anchor' s')
    (hs : s.contribution ≤ anchor) :
    anchor' = anchor ⊔ s'.contribution ∧ s.contribution ≤ s'.contribution := by
  rcases h.anchor_cases with ⟨rfl, hp⟩ | ⟨treeSize, hp, hp', hle, rfl⟩
  · rw [CallState.contribution, CallState.contribution, hp]
    exact ⟨(sup_eq_left.2 hs).symm, Nat.le_refl _⟩
  · rw [CallState.contribution, CallState.contribution, hp, hp']
    exact ⟨(sup_eq_right.2 hle).symm, Nat.zero_le _⟩

/-! ## One call alone -/

/-- Where a call stands that began at `anchor₀` with no other call around, and the anchor then. -/
def Alone (v : KeylessVerifier D) (call : Call) (anchor₀ anchor : Nat) : CallState → Prop
  | .start => anchor = anchor₀
  | .load treeSize => anchor = anchor₀ ∧
    v.checkBundle call.clock call.manifest call.bundleJson = .ok (some treeSize)
  | .exchange treeSize prev => anchor = anchor₀ ∧ prev = anchor₀ ∧
    v.checkBundle call.clock call.manifest call.bundleJson = .ok (some treeSize)
  | .parse passed => anchor = max (passed.getD 0) anchor₀ ∧ Admits anchor₀ passed ∧
    v.checkBundle call.clock call.manifest call.bundleJson = .ok passed
  | .done result _ => v.verifyBundle call.clock call.manifest call.bundleJson anchor₀ =
    (result, anchor)

theorem CallStep.alone (h : CallStep v call anchor s anchor' s')
    (hs : Alone v call anchor₀ anchor s) : Alone v call anchor₀ anchor' s' := by
  cases h with
  | reject hc =>
    obtain rfl := hs
    simp [Alone, KeylessVerifier.verifyBundle, hc, bind, Except.bind]
  | skip hc =>
    obtain rfl := hs
    exact ⟨(Nat.zero_max _).symm, admits_none, hc⟩
  | check hc => exact ⟨hs, hc⟩
  | load => exact ⟨hs.1, hs.1, hs.2⟩
  | stale hf =>
    obtain ⟨rfl, rfl, hc⟩ := hs
    simp [Alone, KeylessVerifier.verifyBundle, hc, advanceAnchor, hf, bind, Except.bind]
  | advance hf =>
    obtain ⟨rfl, -, hc⟩ := hs
    exact ⟨rfl, admits_some.2 (checkFresh_eq_ok.1 hf), hc⟩
  | retry =>
    obtain ⟨rfl, -, hc⟩ := hs
    exact ⟨rfl, rfl, hc⟩
  | parse =>
    obtain ⟨rfl, ha, hc⟩ := hs
    exact verifyBundle_of_admits hc ha

/-- A call that runs alone to its end does what `verifyBundle` says. -/
theorem callStep_alone (h : Run (fun _ : Unit => CallStep v call) ⟨anchor, fun _ => .start⟩ c)
    (hd : c.locals () = .done result passed) :
    v.verifyBundle call.clock call.manifest call.bundleJson anchor = (result, c.shared) := by
  have halone := h.invariant (I := fun c => Alone v call anchor c.shared (c.locals ()))
    (fun hc hs => by simpa using hs.alone hc) rfl
  rw [hd] at halone
  exact halone

/-! ## Calls in any interleaving -/

/-- Over every interleaving of any number of calls on one verifier: the anchor never decreases; a
call that passes the freshness check does so with a tree size at least the anchor of that moment;
and when all calls are finished the anchor is the maximum of the seed and all tree sizes that
passed. -/
theorem verifyBundle_anchor_interleaved {ι : Type} [DecidableEq ι] [Fintype ι]
    (v : KeylessVerifier D) (calls : ι → Call) (seed : Nat) (c : Config ι Nat CallState)
    (hrun : Run (fun i => CallStep v (calls i)) ⟨seed, fun _ => .start⟩ c) :
    (∀ c', Run (fun i => CallStep v (calls i)) c c' → c.shared ≤ c'.shared) ∧
    (∀ c' i treeSize, Step (fun i => CallStep v (calls i)) c c' → (c.locals i).passed = none →
      (c'.locals i).passed = some treeSize → c.shared ≤ treeSize ∧ c'.shared = treeSize) ∧
    ((∀ i, (c.locals i).isDone) →
      c.shared = max seed (Finset.univ.sup fun i => (c.locals i).passed.getD 0)) := by
  refine ⟨fun c' h => h.shared_mono CallStep.anchor_le, fun c' i treeSize hstep hp hp' => ?_,
    fun _ => ?_⟩
  · cases hstep with
    | task j hj =>
      rcases eq_or_ne i j with rfl | hne
      · simp only [Function.update_self] at hp'
        rcases hj.anchor_cases with ⟨-, heq⟩ | ⟨_, -, heq, hle, rfl⟩
        · rw [heq, hp] at hp'
          cases hp'
        · rw [hp'] at heq
          cases heq
          exact ⟨hle, rfl⟩
      · -- another call took the step
        simp only [Function.update_of_ne hne, hp] at hp'
        cases hp'
  · have h0 : seed = seed ⊔ total CallState.contribution fun _ : ι => .start := by
      simp [total, CallState.contribution, CallState.passed]
    exact hrun.shared_eq_sup_total CallStep.contribution h0

open Sample in
/-- A call of the bundle with the checkpoint of three entries. -/
def Sample.call : Call where
  clock _ := 50
  manifest := emptyCatalogue
  bundleJson := bundleJson (signedBundle "BF8=" { entryA 3 with inclusionProof := none })

open Sample in
theorem Sample.call_checks : verifier.checkBundle call.clock call.manifest call.bundleJson =
    .ok (some 3) := by
  decide +kernel

open Sample in
/-- Two calls, of which the second exchanges first and makes the first one retry. -/
theorem verifyBundle_anchor_interleaved_two :
    ∃ c : Config (Fin 2) Nat CallState, (∀ i, (c.locals i).isDone) ∧ c.shared = 3 ∧
      c.shared = max 0 (Finset.univ.sup fun i => (c.locals i).passed.getD 0) := by
  have hrun : ∃ c : Config (Fin 2) Nat CallState,
      Run (fun _ => CallStep verifier call) ⟨0, fun _ => .start⟩ c ∧ c.shared = 3 ∧
      ∀ i, (c.locals i).isDone := by
    exact ⟨_, .tail (.tail (.tail (.tail (.tail (.tail (.tail (.tail (.tail .refl
      (.task 0 (.check call_checks))) (.task 1 (.check call_checks)))
      (.task 0 .load)) (.task 1 .load)) (.task 1 (.advance rfl))) (.task 0 (.retry rfl)))
      (.task 0 (.advance rfl))) (.task 1 .parse)) (.task 0 .parse), rfl,
      Fin.forall_fin_two.2 ⟨trivial, trivial⟩⟩
  obtain ⟨c, hrun, hshared, hdone⟩ := hrun
  exact ⟨c, hdone, hshared, (verifyBundle_anchor_interleaved verifier (fun _ => call) 0 c hrun).2.2
    hdone⟩

end Tako.Sigstore
