import Tako.Runtime.FallbackCascade

/-!
# `FallbackProvider`s in one another

A `FallbackProvider` is a provider, so it may be the primary or a fallback of another one. However
they are nested, they are the one whose chain has all their providers in order (`provider_eq_flat`).
-/

namespace Tako.Runtime

open Orchestrator Providers Cascade

variable {W α : Type}

attribute [ext] LlmProvider

/-- Providers with fallbacks, which have fallbacks of their own. -/
inductive Nesting (W : Type) where
  | single (provider : LlmProvider W)
  | chain (primary : Nesting W) (fallbacks : List (Nesting W))

namespace Nesting

mutual

/-- What `FallbackProvider::new` makes of it. -/
def provider : Nesting W → LlmProvider W
  | .single provider => provider
  | .chain primary fallbacks => FallbackProvider.provider ⟨primary.provider, providers fallbacks⟩

def providers : List (Nesting W) → List (LlmProvider W)
  | [] => []
  | n :: ns => n.provider :: providers ns

end

mutual

/-- One chain of all the providers. -/
def flat : Nesting W → FallbackProvider W
  | .single provider => ⟨provider, []⟩
  | .chain primary fallbacks => ⟨primary.flat.primary, primary.flat.fallbacks ++ flats fallbacks⟩

/-- All the providers, in order. -/
def flats : List (Nesting W) → List (LlmProvider W)
  | [] => []
  | n :: ns => n.flat.providers ++ flats ns

end

theorem providers_eq_map (ns : List (Nesting W)) : providers ns = ns.map provider := by
  induction ns with
  | nil => rw [providers, List.map_nil]
  | cons n ns ih => rw [providers, List.map_cons, ih]

theorem flats_eq_flatMap (ns : List (Nesting W)) : flats ns = ns.flatMap (·.flat.providers) := by
  induction ns with
  | nil => rw [flats, List.flatMap_nil]
  | cons n ns ih => rw [flats, List.flatMap_cons, ih]

theorem providers_flat_chain (primary : Nesting W) (fallbacks : List (Nesting W)) :
    (chain primary fallbacks).flat.providers =
      (primary :: fallbacks).flatMap (·.flat.providers) := by
  rw [flat, List.flatMap_cons, flats_eq_flatMap]
  rfl

end Nesting

/-! ## What a chain leaves -/

/-- `chat` or `stream`: a `FallbackProvider` has what its cascade leaves. -/
def Method.Cascades (method : Method W α) : Prop :=
  ∀ (F : FallbackProvider W) (p : Principal) (req : ChatRequest) (w : W),
    method F.provider p req w = left (F.answer method p req) w

theorem chat_cascades : Method.Cascades (LlmProvider.chat (W := W)) := fun _ _ _ _ => rfl

theorem stream_cascades : Method.Cascades (LlmProvider.stream (W := W)) := fun _ _ _ _ => rfl

/-- The providers are asked in order, up to the first result that is final. -/
def asked (method : Method W α) (p : Principal) (req : ChatRequest) (last : Result α)
    (providers : List (LlmProvider W)) : Traced W (Called α) TakoError α :=
  poll (FallbackProvider.ask method p req 0) (fun _ => isFinal) last providers

section

variable (method : Method W α) (p : Principal) (req : ChatRequest) (last : Result α) (w : W)

theorem left_ask (i : Nat) (provider : LlmProvider W) :
    left (FallbackProvider.ask method p req i provider) w = method provider p req w := rfl

theorem left_asked_singleton (provider : LlmProvider W) :
    left (asked method p req last [provider]) w = method provider p req w := by
  rw [asked, left_poll_cons, left_ask]
  split
  · rfl
  · rw [left, poll, Traced.run_ofExcept]

/-- Nothing depends on the indices. -/
theorem left_answer (F : FallbackProvider W) :
    left (F.answer method p req) w = left (asked method p req last F.providers) w := by
  have hfst : F.providers.zipIdx.flatMap (fun c => [c.1]) = F.providers := by
    rw [← List.map_eq_flatMap, List.zipIdx_map_fst]
  have hask (c : LlmProvider W × Nat) (last : Result α) (w : W) :
      left (FallbackProvider.askAt method p req c) w =
        left (poll (FallbackProvider.ask method p req 0) (fun _ => isFinal) last [c.1]) w :=
    (left_asked_singleton method p req last w c.1).symm
  rw [F.answer_eq_poll method p req last, asked]
  refine (left_poll_flatMap (fun c => [c.1]) (fun _ _ => List.cons_ne_nil _ _)
    fun c _ => hask c).trans ?_
  rw [hfst]

end

namespace Nesting

variable {method : Method W α}

mutual

theorem left_provider (hmethod : method.Cascades) (n : Nesting W) (p : Principal)
    (req : ChatRequest) (last : Result α) (w : W) :
    method n.provider p req w = left (asked method p req last n.flat.providers) w := by
  cases n with
  | single provider => exact (left_asked_singleton method p req last w provider).symm
  | chain primary fallbacks =>
    have hparts := List.forall_mem_cons.2
      ⟨left_provider hmethod primary, left_providers hmethod fallbacks⟩
    have hchain : (FallbackProvider.mk primary.provider (providers fallbacks)).providers =
        (primary :: fallbacks).map provider := by rw [List.map_cons, ← providers_eq_map]; rfl
    rw [provider, hmethod, left_answer method p req last w, providers_flat_chain, hchain,
      List.map_eq_flatMap]
    have hsingle (n : Nesting W) (last : Result α) (w : W) :
        left (FallbackProvider.ask method p req 0 n.provider) w =
          left (asked method p req last [n.provider]) w :=
      (left_asked_singleton method p req last w n.provider).symm
    refine (left_poll_flatMap _ (fun _ _ => List.cons_ne_nil _ _)
      fun n _ => hsingle n).symm.trans ?_
    exact left_poll_flatMap _ (fun _ _ => List.cons_ne_nil _ _) fun n hn => hparts n hn p req

theorem left_providers (hmethod : method.Cascades) (ns : List (Nesting W)) :
    ∀ n ∈ ns, ∀ (p : Principal) (req : ChatRequest) (last : Result α) (w : W),
      method n.provider p req w = left (asked method p req last n.flat.providers) w := by
  cases ns with
  | nil => exact fun _ => nofun
  | cons n ns =>
    exact List.forall_mem_cons.2 ⟨left_provider hmethod n, left_providers hmethod ns⟩

end

/-- The estimate, the id and the capabilities are those of the first provider of all. -/
theorem provider_primary (n : Nesting W) :
    n.provider.id = n.flat.primary.id ∧
      n.provider.capabilities = n.flat.primary.capabilities ∧
      n.provider.estimateCostUsd = n.flat.primary.estimateCostUsd := by
  cases n with
  | single provider => exact ⟨rfl, rfl, rfl⟩
  | chain primary fallbacks =>
    rw [provider, flat]
    exact provider_primary primary

theorem method_provider {method : Method W α} (hmethod : method.Cascades) (n : Nesting W) :
    method n.provider = method n.flat.provider := by
  refine funext fun p => funext fun req => funext fun w => ?_
  rw [left_provider hmethod n p req (.error .circuitOpen) w, hmethod, left_answer]

/-- Nested providers with fallbacks are the provider of the one chain of all of them. -/
theorem provider_eq_flat (n : Nesting W) : n.provider = n.flat.provider := by
  obtain ⟨hid, hcapabilities, hestimate⟩ := n.provider_primary
  exact LlmProvider.ext hid hcapabilities hestimate (method_provider chat_cascades n)
    (method_provider stream_cascades n)

end Nesting

end Tako.Runtime
