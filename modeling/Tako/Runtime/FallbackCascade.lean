import Tako.Runtime.Fallback
import Tako.Runtime.Retry

/-!
# The cascade of a `FallbackProvider`

`chat` and `stream` ask the providers in order, up to the first one whose result is a success or an
error that is not transient (`cascade_law`).
-/

namespace Tako.Runtime.FallbackProvider

open Orchestrator Providers

variable {W α : Type}

def providers (F : FallbackProvider W) : List (LlmProvider W) := F.primary :: F.fallbacks

/-- A provider with its index. -/
def askAt (method : Method W α) (p : Principal) (req : ChatRequest) (c : LlmProvider W × Nat) :
    Traced W (Called α) TakoError α :=
  ask method p req c.2 c.1

/-- The loops are a cascade. -/
theorem cascade_eq_poll (method : Method W α) (p : Principal) (req : ChatRequest) (i : Nat)
    (lastErr : TakoError) (fallbacks : List (LlmProvider W)) :
    cascade (ask method p req) i lastErr fallbacks =
      Cascade.poll (askAt method p req) (fun _ => isFinal) (.error lastErr)
        (fallbacks.zipIdx i) := by
  induction fallbacks generalizing i lastErr with
  | nil => rfl
  | cons fb fallbacks ih =>
    rw [cascade, List.zipIdx_cons, Cascade.poll]
    refine congrArg _ (funext fun r => ?_)
    cases r with
    | ok a => rfl
    | error e =>
      cases he : e.isTransient with
      | true => simp only [he, if_true, ih, isFinal, Bool.not_true, if_neg Bool.false_ne_true]
      | false => simp only [he, isFinal, Bool.not_false, if_true, if_neg Bool.false_ne_true,
          Traced.ofExcept]

theorem answer_eq_poll (F : FallbackProvider W) (method : Method W α) (p : Principal)
    (req : ChatRequest) (last : Result α) :
    F.answer method p req =
      Cascade.poll (askAt method p req) (fun _ => isFinal) last F.providers.zipIdx := by
  rw [answer, providers, List.zipIdx_cons, Cascade.poll]
  refine congrArg _ (funext fun r => ?_)
  cases r with
  | ok a => rfl
  | error e =>
    cases he : e.isTransient with
    | true => simp only [he, if_true, cascade_eq_poll, isFinal, Bool.not_true,
        if_neg Bool.false_ne_true, Nat.zero_add]
    | false => simp only [he, isFinal, Bool.not_false, if_true, if_neg Bool.false_ne_true,
        Traced.ofExcept]

/-- The calls of all providers, each in the world that the one before left. -/
def calls (F : FallbackProvider W) (method : Method W α) (p : Principal) (req : ChatRequest)
    (w : W) : List (Called α) :=
  (Cascade.outcomes (askAt method p req) F.providers.zipIdx w).map fun o =>
    ⟨o.1.2, o.1.1.id, req, o.2.result⟩

/-- The run has the calls of the providers in order up to the first one whose result is final, and
that result; if there is none, the last one's. -/
structure CascadeLaw (F : FallbackProvider W) (method : Method W α) (p : Principal)
    (req : ChatRequest) (w : W) (o : Outcome W (Called α) TakoError α) : Prop where
  everyone : (F.calls method p req w).map (fun c => (c.provider, c.index)) =
    (F.providers.map (·.id)).zipIdx
  trace : o.trace =
    (F.calls method p req w).take ((F.calls method p req w).findIdx (isFinal ·.result) + 1)
  result : some o.result = (((F.calls method p req w).find? (isFinal ·.result)).or
    (F.calls method p req w).getLast?).map (·.result)

theorem calls_everyone (F : FallbackProvider W) (method : Method W α) (p : Principal)
    (req : ChatRequest) (w : W) :
    (F.calls method p req w).map (fun c => (c.provider, c.index)) =
      (F.providers.map (·.id)).zipIdx := by
  have hmap : (F.calls method p req w).map (fun c => (c.provider, c.index)) =
      ((Cascade.outcomes (askAt method p req) F.providers.zipIdx w).map Prod.fst).map
        fun c => (c.1.id, c.2) := by
    rw [calls, List.map_map, List.map_map]
    rfl
  rw [hmap, Cascade.map_fst_outcomes, List.zipIdx_map]
  rfl

theorem answer_law (F : FallbackProvider W) (method : Method W α) (p : Principal)
    (req : ChatRequest) (w : W) :
    F.CascadeLaw method p req w ((F.answer method p req).run w) where
  everyone := calls_everyone F method p req w
  trace := by
    rw [F.answer_eq_poll method p req (.error .circuitOpen), Cascade.trace_poll_map
      (fun c r => ⟨c.2, c.1.id, req, r⟩) fun _ _ => rfl, Cascade.upTo_eq_take, calls,
      List.map_take, List.findIdx_map]
    rfl
  result := by
    rw [F.answer_eq_poll method p req (.error .circuitOpen), providers, List.zipIdx_cons,
      Cascade.result_poll_cons, Cascade.decider, calls, List.find?_map, List.getLast?_map,
      ← Option.map_or, Option.map_map]
    rfl

/-- `chat` and `stream` are such cascades. -/
theorem cascade_law (F : FallbackProvider W) (p : Principal) (req : ChatRequest) (w : W) :
    F.CascadeLaw LlmProvider.chat p req w ((F.chat p req).run w) ∧
      F.CascadeLaw LlmProvider.stream p req w ((F.stream p req).run w) :=
  ⟨F.answer_law LlmProvider.chat p req w, F.answer_law LlmProvider.stream p req w⟩

end Tako.Runtime.FallbackProvider
