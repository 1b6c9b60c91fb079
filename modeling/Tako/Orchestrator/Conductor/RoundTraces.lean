import Tako.Orchestrator.Conductor.Events

/-!
# The rounds of a run

Which rounds a run comes to, what each of them dispatches, and which results `stream` gives for
which id. The ids of different rounds differ.
-/

namespace Tako.Orchestrator

open Traced

variable {W : Type}

/-! ## The rounds of a run -/

/-- A round, with what it starts from. -/
structure Round (W : Type) where
  step : Nat
  state : RunState
  world : W

/-- What a round dispatches, with what the coordinator's answer leaves. -/
structure Dispatch (W : Type) where
  state : RunState
  plan : List WorkerDispatch
  world : W

namespace Conductor

variable (C : Conductor W) (p : Principal) (S : Schedule W)

/-- The rounds that a run comes to. -/
def roundsOf (round : Nat → RunState → CM W (RunState ⊕ OrchOutput)) :
    Nat → Nat → RunState → W → List (Round W)
  | 0, _, _, _ => []
  | n + 1, step, s, w =>
    let o := (round step s).run w
    ⟨step, s, w⟩ ::
      match o.result with
      | .ok (.inl s) => roundsOf round n (step + 1) s o.world
      | _ => []

/-- What the coordinator has the workers do in a round. -/
def dispatched (r : Round W) : Option (Dispatch W) :=
  let o := (C.ask p r.state.messages).run r.world
  match o.result with
  | .error _ => none
  | .ok resp =>
    match parseDispatchPlan C.codec resp.message.text with
    | .error _ => none
    | .ok plan =>
      if plan.halt || plan.dispatch.isEmpty then none
      else some ⟨r.state.answered resp, plan.dispatch, o.world⟩

/-- What a round of `run` does with its plan. -/
def carryOut (step : Nat) (D : Dispatch W) : CM W (RunState ⊕ OrchOutput) := do
  let results ← C.dispatchWorkersStatic p S step D.plan
  let s ← C.report D.state results
  pure (.inl s)

/-- What a round of `stream` does with its plan. -/
def carryOutStreaming (prompt : String) (step : Nat) (D : Dispatch W) :
    CM W (RunState ⊕ OrchOutput) := do
  byConductor (D.plan.zipIdx.forM fun (d, idx) =>
    yield (.toolCallStart step s!"worker:{d.worker}" s!"step{step}-{idx}"))
  let results ← C.dispatchWorkersStreaming p S step D.plan
  byConductor (results.zipIdx.forM fun (r, idx) => C.yieldResult p prompt step idx r)
  let s ← C.report D.state results
  pure (.inl s)

variable {C p S}

/-- What the coordinator's answer leads to. -/
theorem dispatched_eq_some {r : Round W} (h : C.dispatched p r = some D) :
    ∃ resp plan, ((C.ask p r.state.messages).run r.world).result = .ok resp ∧
      parseDispatchPlan C.codec resp.message.text = .ok plan ∧ plan.halt = false ∧
      plan.dispatch.isEmpty = false ∧ D = ⟨r.state.answered resp, plan.dispatch,
        ((C.ask p r.state.messages).run r.world).world⟩ := by
  rw [dispatched] at h
  split at h
  · cases h
  · next resp hresp =>
    split at h
    · cases h
    · next plan hplan =>
      split at h
      · cases h
      · next hgo =>
        rw [Bool.not_eq_true, Bool.or_eq_false_iff] at hgo
        exact ⟨resp, plan, hresp, hplan, hgo.1, hgo.2, (Option.some.inj h).symm⟩

theorem byConductor_ok {x : M W α} (h : (x.run w).result = .ok a) :
    ((byConductor x).run w).result = .ok a := by
  change (x.run w).result.mapError _ = _
  rw [h]
  rfl

theorem round_run {r : Round W} (h : C.dispatched p r = some D) :
    ((C.round p S r.step r.state).run r.world).result =
      ((C.carryOut p S r.step D).run D.world).result := by
  obtain ⟨resp, plan, hresp, hplan, hhalt, hempty, rfl⟩ := dispatched_eq_some h
  rw [round, run_bind_ok _ (byConductor_ok hresp)]
  dsimp only
  rw [hplan]
  simp only [hhalt, hempty]
  rfl

/-- The results that the stream gives for an id. -/
def toolCallResult? (id : String) : Party × Act W → Option (Nat × Json × Bool)
  | (.conductor, .yielded (.toolCallResult step id' result isError)) =>
    if id' = id then some (step, result, isError) else none
  | _ => none

theorem toolCallResult?_of_not_yield (id : String) {a : Act W} (h : ¬a.IsYield) :
    toolCallResult? id (.conductor, a) = none := by
  cases a with
  | yielded e => exact absurd trivial h
  | _ => rfl

/-- The run `o` goes on as `o'` after a part without results. -/
structure GoesOnAs (o o' : Outcome W (Party × Act W) Failure α) : Prop where
  result : o.result = o'.result
  trace : ∃ pre, o.trace = pre ++ o'.trace ∧ ∀ id, pre.filterMap (toolCallResult? id) = []

theorem GoesOnAs.rfl {o : Outcome W (Party × Act W) Failure α} : GoesOnAs o o :=
  ⟨Eq.refl _, [], Eq.refl _, fun _ => Eq.refl _⟩

/-- A first part that gives no results. -/
theorem GoesOnAs.bind {x : CM W α} {f : α → CM W β} (hx : (x.run w).result = .ok a)
    (hacts : x.Acts fun t => ∀ id, toolCallResult? id t = none)
    (h : GoesOnAs ((f a).run (x.run w).world) o) : GoesOnAs ((x >>= f).run w) o := by
  obtain ⟨hresult, pre, htrace, hpre⟩ := h
  rw [run_bind_ok f hx]
  refine ⟨hresult, (x.run w).trace ++ pre, ?_, fun id => ?_⟩
  · rw [List.append_assoc, ← htrace]
  · rw [List.filterMap_append, hpre id, List.append_nil, List.filterMap_eq_nil_iff]
    exact fun t ht => hacts w t ht id

theorem roundStreaming_run {r : Round W} (h : C.dispatched p r = some D) (prompt : String) :
    GoesOnAs ((C.roundStreaming p S prompt r.step r.state).run r.world)
      ((C.carryOutStreaming p S prompt r.step D).run D.world) := by
  obtain ⟨resp, plan, hresp, hplan, hhalt, hempty, rfl⟩ := dispatched_eq_some h
  refine .bind rfl (.embed (.emit fun _ => rfl)) (.bind (byConductor_ok hresp) ?_ ?_)
  · exact .embed (ask_acts (fun a ha id => toolCallResult?_of_not_yield id ha) _ _ _)
  · have hend : GoesOnAs ((C.carryOutStreaming p S prompt r.step ⟨r.state.answered resp,
        plan.dispatch, ((C.ask p r.state.messages).run r.world).world⟩).run
          ((C.ask p r.state.messages).run r.world).world) _ := .rfl
    dsimp only
    split
    · refine .bind rfl (.embed (.pure _)) ?_
      rw [hplan]
      simp only [hhalt, hempty]
      exact hend
    · refine .bind rfl (.embed (.emit fun _ => rfl)) ?_
      rw [hplan]
      simp only [hhalt, hempty]
      exact hend

/-! ## The ids -/

theorem repr_injective {m n : Nat} (h : Nat.toDigits 10 m = Nat.toDigits 10 n) : m = n := by
  have hvalue := congrArg (Nat.ofDigitChars 10 · 0) h
  simpa only [Nat.ofDigitChars_ten_toDigits] using hvalue

/-- Digits up to the first character that is none. -/
theorem append_digits_inj {xs ys : List Char} (hxs : ∀ c ∈ xs, c.isDigit = true)
    (hys : ∀ c ∈ ys, c.isDigit = true) (h : xs ++ '-' :: zs = ys ++ '-' :: zs') :
    xs = ys ∧ zs = zs' := by
  induction xs generalizing ys with
  | nil =>
    cases ys with
    | nil => exact ⟨rfl, List.tail_eq_of_cons_eq h⟩
    | cons c ys =>
      have hc := hys c List.mem_cons_self
      rw [← List.head_eq_of_cons_eq h] at hc
      exact absurd hc (by decide)
  | cons c xs ih =>
    cases ys with
    | nil =>
      have hc := hxs c List.mem_cons_self
      rw [List.head_eq_of_cons_eq h] at hc
      exact absurd hc (by decide)
    | cons c' ys =>
      obtain ⟨rfl, hrest⟩ := ih (fun c hc => hxs c (List.mem_cons_of_mem _ hc))
        (fun c hc => hys c (List.mem_cons_of_mem _ hc)) (List.tail_eq_of_cons_eq h)
      exact ⟨by rw [List.head_eq_of_cons_eq h], hrest⟩

theorem id_injective {step idx k i : Nat} (h : s!"step{step}-{idx}" = s!"step{k}-{i}") :
    step = k ∧ idx = i := by
  have htoList (n k : Nat) : (s!"step{n}-{k}").toList =
      "step".toList ++ (Nat.toDigits 10 n ++ '-' :: Nat.toDigits 10 k) := by
    simp [toString, Nat.toList_repr]
  have hdigit {n : Nat} : ∀ c ∈ Nat.toDigits 10 n, c.isDigit = true := fun _ hc =>
    Nat.isDigit_of_mem_toDigits (by decide) (by decide) hc
  have hlist := congrArg String.toList h
  rw [htoList, htoList] at hlist
  obtain ⟨hstep, hidx⟩ := append_digits_inj hdigit hdigit (List.append_cancel_left hlist)
  exact ⟨repr_injective hstep, repr_injective hidx⟩

/-- What a result of the list gives for an id. -/
def passedOn (step : Nat) (id : String) (entry : WorkerResult × Nat) :
    Option (Nat × Json × Bool) :=
  if s!"step{step}-{entry.2}" = id then some (step, entry.1.toJson, entry.1.err?.isSome) else none

theorem passedOn_of_ne (r : WorkerResult) (h : idx ≠ i) :
    passedOn step s!"step{step}-{i}" (r, idx) = none :=
  if_neg fun heq => h (id_injective heq).2

theorem filterMap_passedOn (step : Nat) (results : List WorkerResult) (i k : Nat) :
    (results.zipIdx k).filterMap (passedOn step s!"step{step}-{k + i}") =
      (results[i]?.map fun r => (step, r.toJson, r.err?.isSome)).toList := by
  induction results generalizing i k with
  | nil => rfl
  | cons r results ih =>
    rw [List.zipIdx_cons]
    cases i with
    | zero =>
      have hrest : (results.zipIdx (k + 1)).filterMap (passedOn step s!"step{step}-{k}") = [] := by
        refine List.filterMap_eq_nil_iff.2 fun entry hmem => ?_
        have hle := (List.mem_zipIdx hmem).1
        exact passedOn_of_ne entry.1 (by omega)
      have hfirst : passedOn step s!"step{step}-{k}" (r, k) =
          some (step, r.toJson, r.err?.isSome) := if_pos rfl
      rw [Nat.add_zero, List.filterMap_cons_some hfirst, hrest]
      rfl
    | succ i =>
      rw [List.filterMap_cons_none (passedOn_of_ne r (by omega)),
        show k + (i + 1) = k + 1 + i by omega]
      exact ih i (k + 1)

/-- A part of the conductor that gives no results. -/
theorem filterMap_toolCallResult? {x : M W α} (id : String)
    (h : x.Acts fun t => toolCallResult? id (.conductor, t) = none) (w : W) :
    ((x.run w).trace.map (Party.conductor, ·)).filterMap (toolCallResult? id) = [] :=
  List.filterMap_eq_nil_iff.2 (List.forall_mem_map.2 (h w))

/-- An event, and then a part that gives no results. -/
theorem filterMap_yield_bind (id : String) (e : OrchEvent) {x : M W Unit}
    (h : x.Acts fun t => toolCallResult? id (.conductor, t) = none) (w : W) :
    (((yield e >>= fun _ => x).run w).trace.map (Party.conductor, ·)).filterMap
      (toolCallResult? id) = (toolCallResult? (W := W) id (.conductor, .yielded e)).toList := by
  rw [run_bind_ok (a := ()) _ rfl, List.map_append, List.filterMap_append]
  refine (congrArg (_ ++ ·) (filterMap_toolCallResult? id h w)).trans ?_
  rw [List.append_nil]
  cases hid : toolCallResult? (W := W) id (.conductor, .yielded e) with
  | none => exact List.filterMap_cons_none hid
  | some result => exact List.filterMap_cons_some hid

theorem yieldResult_trace (C : Conductor W) (p : Principal) (prompt : String) (step : Nat)
    (entry : WorkerResult × Nat) (id : String) (w : W) :
    (((C.yieldResult p prompt step entry.2 entry.1).run w).trace.map
      (Party.conductor, ·)).filterMap (toolCallResult? id) = (passedOn step id entry).toList := by
  refine filterMap_yield_bind id _ ?_ w
  split
  · exact .bind (.call fun _ => rfl) fun _ => .emit rfl
  · exact .pure _

/-- Whatever is passed on before a verifier fails, it is all of the results if none does. -/
theorem results_trace (C : Conductor W) (p : Principal) (prompt : String) (step : Nat)
    (entries : List (WorkerResult × Nat)) (id : String) (w : W)
    (h : ((entries.forM fun entry => C.yieldResult p prompt step entry.2 entry.1).run w).result =
      .ok ()) :
    (((entries.forM fun entry => C.yieldResult p prompt step entry.2 entry.1).run w).trace.map
      (Party.conductor, ·)).filterMap (toolCallResult? id) =
        entries.filterMap (passedOn step id) := by
  induction entries generalizing w with
  | nil => rfl
  | cons entry entries ih =>
    have hcons : ((entry :: entries).forM fun entry =>
        C.yieldResult p prompt step entry.2 entry.1) =
        C.yieldResult p prompt step entry.2 entry.1 >>= fun _ =>
          entries.forM fun entry => C.yieldResult p prompt step entry.2 entry.1 := rfl
    have hentry := yieldResult_trace C p prompt step entry id w
    rw [hcons] at h ⊢
    cases hr : ((C.yieldResult p prompt step entry.2 entry.1).run w).result with
    | error e =>
      rw [run_bind_error _ hr] at h
      cases h
    | ok =>
      rw [run_bind_ok _ hr] at h ⊢
      rw [List.map_append, List.filterMap_append, hentry, ih _ h, List.filterMap_cons]
      cases passedOn step id entry <;> rfl

/-! ## What a round comes to -/

/-- The fan-out of a round's plan, when it has come to its end. -/
def fanoutOf (C : Conductor W) (p : Principal) (S : Schedule W) (streaming : Bool) (step : Nat)
    (D : Dispatch W) : Fanout.State W :=
  C.played p S streaming step D.plan D.world

theorem carryOut_run (C : Conductor W) (p : Principal) (S : Schedule W) (step : Nat)
    (D : Dispatch W) :
    let f := fanoutOf C p S false step D
    ((C.carryOut p S step D).run D.world).result =
      ((C.report D.state ((C.fanout p false step D.plan).joined f) >>= fun s => pure (.inl s) :
        CM W (RunState ⊕ OrchOutput)).run f.world).result := by
  rw [carryOut, run_bind_ok _ rfl]
  rfl

/-- The conductor gets through the results: its verifier does not fail. -/
def GetsThrough (C : Conductor W) (p : Principal) (prompt : String) (step : Nat)
    (f : Fanout.State W) : Prop :=
  f.failed = none ∧ (((Fanout.collected f).zipIdx.forM fun entry =>
    C.yieldResult p prompt step entry.2 entry.1).run f.world).result = .ok ()

theorem forM_yield_run (f : α → OrchEvent) (l : List α) (w : W) :
    (l.forM fun a => (yield (f a) : M W Unit)).run w =
      ⟨.ok (), w, l.map fun a => .yielded (f a)⟩ := by
  induction l with
  | nil => rfl
  | cons a l ih =>
    change andThen ⟨.ok (), w, [.yielded (f a)]⟩ (fun _ => l.forM fun a => yield (f a)) = _
    rw [andThen]
    dsimp only
    rw [ih]
    rfl

/-- The start of a dispatched task. -/
def startEvent (step : Nat) (entry : WorkerDispatch × Nat) : OrchEvent :=
  .toolCallStart step s!"worker:{entry.1.worker}" s!"step{step}-{entry.2}"

theorem starts_run (step : Nat) (plan : List WorkerDispatch) (w : W) :
    (byConductor (plan.zipIdx.forM fun entry => (yield (startEvent step entry) : M W Unit))).run w =
      ⟨.ok (), w, plan.zipIdx.map fun entry =>
        (.conductor, .yielded (startEvent step entry))⟩ := by
  rw [byConductor, Traced.embed]
  dsimp only
  rw [forM_yield_run, List.map_map]
  rfl

theorem dispatchWorkersStreaming_run (hfailed : (fanoutOf C p S true step D).failed = none) :
    (C.dispatchWorkersStreaming p S step D.plan).run D.world =
      ⟨.ok (Fanout.collected (fanoutOf C p S true step D)), (fanoutOf C p S true step D).world,
        (fanoutOf C p S true step D).trace⟩ := by
  rw [dispatchWorkersStreaming]
  dsimp only
  rw [show (C.played p S true step D.plan D.world).failed = none from hfailed]
  rfl

/-- What a round of `stream` comes to, once the conductor gets through its results. -/
theorem carryOutStreaming_run (hpass : C.GetsThrough p prompt step (fanoutOf C p S true step D)) :
    let f := fanoutOf C p S true step D
    let o := (C.carryOutStreaming p S prompt step D).run D.world
    (∃ w, o.result = ((C.report D.state (Fanout.collected f) >>= fun s => pure (.inl s) :
      CM W (RunState ⊕ OrchOutput)).run w).result) ∧
    (∀ id, o.trace.filterMap (toolCallResult? id) =
      (Fanout.collected f).zipIdx.filterMap (passedOn step id)) ∧
    ∀ entry ∈ D.plan.zipIdx, (.conductor, .yielded (startEvent step entry)) ∈ o.trace := by
  intro f o
  obtain ⟨hfailed, hresults⟩ := hpass
  have hstarts := starts_run step D.plan D.world
  have hdispatch := dispatchWorkersStreaming_run hfailed
  have hpassed := byConductor_ok hresults
  let passed := (byConductor ((Fanout.collected f).zipIdx.forM fun entry =>
    C.yieldResult p prompt step entry.2 entry.1)).run f.world
  let rest := (C.report D.state (Fanout.collected f) >>= fun s => pure (.inl s) :
    CM W (RunState ⊕ OrchOutput)).run passed.world
  have ho : o = ⟨rest.result, rest.world, (D.plan.zipIdx.map fun entry =>
      (.conductor, .yielded (startEvent step entry))) ++
        (f.trace ++ (passed.trace ++ rest.trace))⟩ := by
    change (byConductor (D.plan.zipIdx.forM fun entry => (yield (startEvent step entry) : M W Unit))
      >>= fun _ => C.dispatchWorkersStreaming p S step D.plan >>= fun results =>
        byConductor (results.zipIdx.forM fun entry =>
          C.yieldResult p prompt step entry.2 entry.1) >>= fun _ =>
          C.report D.state results >>= fun s =>
            (pure (.inl s) : CM W (RunState ⊕ OrchOutput))).run D.world = _
    rw [run_bind_ok _ (congrArg Outcome.result hstarts), hstarts]
    dsimp only
    rw [run_bind_ok _ (congrArg Outcome.result hdispatch), hdispatch]
    dsimp only
    rw [run_bind_ok _ hpassed]
  have hreport : rest.trace = [] := by
    refine List.eq_nil_iff_forall_not_mem.2 fun t ht => ?_
    exact Acts.bind (P := fun _ => False) (report_acts C _ _) (fun _ => .pure _) _ t ht
  rw [ho]
  refine ⟨⟨_, rfl⟩, fun id => ?_, fun entry hmem => ?_⟩
  · have hfanout : f.trace.filterMap (toolCallResult? id) = [] := by
      exact List.filterMap_eq_nil_iff.2 (play_acts (fun _ _ => rfl) (fun _ _ => rfl)
        (C.fanout p true step D.plan) (fun _ _ => rfl) D.world _)
    have hfirst : (D.plan.zipIdx.map fun entry =>
        ((.conductor, .yielded (startEvent step entry)) : Party × Act W)).filterMap
        (toolCallResult? id) = [] :=
      List.filterMap_eq_nil_iff.2 (List.forall_mem_map.2 fun _ _ => rfl)
    rw [List.filterMap_append, List.filterMap_append, hfirst, hfanout, hreport, List.append_nil]
    exact results_trace C p prompt step _ id f.world hresults
  · exact List.mem_append_left _ (List.mem_map_of_mem hmem)

/-! ## The whole run -/

theorem step_le_of_mem_roundsOf {round : Nat → RunState → CM W (RunState ⊕ OrchOutput)}
    (h : r ∈ roundsOf round n step s w) : step ≤ r.step := by
  induction n generalizing step s w with
  | zero => cases h
  | succ n ih =>
    rw [roundsOf] at h
    rcases List.mem_cons.1 h with rfl | h
    · exact Nat.le_refl _
    · split at h
      · exact Nat.le_of_succ_le (ih h)
      · cases h

/-- A round's failure is the run's. -/
theorem rounds_error {round : Nat → RunState → CM W (RunState ⊕ OrchOutput)}
    (h : r ∈ roundsOf round n step s w)
    (he : ((round r.step r.state).run r.world).result = .error e) :
    ((rounds round n step s).run w).result = .error e := by
  induction n generalizing step s w with
  | zero => cases h
  | succ n ih =>
    rw [roundsOf] at h
    rw [rounds]
    rcases List.mem_cons.1 h with rfl | h
    · rw [run_bind_error _ he]
    · split at h
      · next hs =>
        rw [run_bind_ok _ hs]
        exact ih h
      · cases h

theorem mem_rounds_trace {round : Nat → RunState → CM W (RunState ⊕ OrchOutput)}
    (h : r ∈ roundsOf round n step s w) (ht : t ∈ ((round r.step r.state).run r.world).trace) :
    t ∈ ((rounds round n step s).run w).trace := by
  induction n generalizing step s w with
  | zero => cases h
  | succ n ih =>
    rw [roundsOf] at h
    rw [rounds]
    rcases List.mem_cons.1 h with rfl | h
    · exact mem_trace_bind _ ht
    · split at h
      · next hs => exact mem_trace_bind_ok _ hs (ih h)
      · cases h

theorem toolCallResult?_of_actsInRound {k : Nat} {t : Party × Act W} (h : ActsInRound step t)
    (hne : k ≠ step) (i : Nat) : toolCallResult? s!"step{k}-{i}" t = none := by
  rw [toolCallResult?.eq_def]
  split
  · obtain ⟨-, idx, rfl⟩ := h
    exact if_neg fun heq => hne (id_injective heq).1.symm
  · rfl

theorem rounds_succ_trace (round : Nat → RunState → CM W (RunState ⊕ OrchOutput)) (n step : Nat)
    (s : RunState) (w : W) (v : Party × Act W → Option α) :
    ((rounds round (n + 1) step s).run w).trace.filterMap v =
      ((round step s).run w).trace.filterMap v ++
        match ((round step s).run w).result with
        | .ok (.inl s') => ((rounds round n (step + 1) s').run
            ((round step s).run w).world).trace.filterMap v
        | _ => [] := by
  rw [rounds]
  split
  · next s' hs => rw [run_bind_ok _ hs, List.filterMap_append]
  · next hother =>
    rw [List.append_nil]
    cases hr : ((round step s).run w).result with
    | error e => rw [run_bind_error _ hr]
    | ok next =>
      cases next with
      | inl s' => exact absurd hr (hother s')
      | inr output =>
        rw [run_bind_ok _ hr, List.filterMap_append]
        exact List.append_nil _

theorem round_trace_of_ne {round : Nat → RunState → CM W (RunState ⊕ OrchOutput)}
    (hacts : ∀ step s, (round step s).Acts (ActsInRound step)) (hne : k ≠ step) (s : RunState)
    (w : W) (i : Nat) :
    ((round step s).run w).trace.filterMap (toolCallResult? s!"step{k}-{i}") = [] :=
  List.filterMap_eq_nil_iff.2 fun t ht =>
    toolCallResult?_of_actsInRound (hacts step s w t ht) hne i

theorem rounds_trace_of_lt {round : Nat → RunState → CM W (RunState ⊕ OrchOutput)}
    (hacts : ∀ step s, (round step s).Acts (ActsInRound step)) (hlt : k < step) (s : RunState)
    (w : W) (i : Nat) :
    ((rounds round n step s).run w).trace.filterMap (toolCallResult? s!"step{k}-{i}") = [] := by
  induction n generalizing step s w with
  | zero => rfl
  | succ n ih =>
    rw [rounds_succ_trace, round_trace_of_ne hacts (Nat.ne_of_lt hlt)]
    split
    · exact ih (Nat.lt_succ_of_lt hlt) _ _
    · rfl

/-- The results with the ids of a round are given in that round. -/
theorem rounds_trace {round : Nat → RunState → CM W (RunState ⊕ OrchOutput)}
    (hacts : ∀ step s, (round step s).Acts (ActsInRound step))
    (h : r ∈ roundsOf round n step s w) (i : Nat) :
    ((rounds round n step s).run w).trace.filterMap (toolCallResult? s!"step{r.step}-{i}") =
      ((round r.step r.state).run r.world).trace.filterMap
        (toolCallResult? s!"step{r.step}-{i}") := by
  induction n generalizing step s w with
  | zero => cases h
  | succ n ih =>
    rw [roundsOf] at h
    rw [rounds_succ_trace]
    rcases List.mem_cons.1 h with rfl | h
    · have hrest : (match ((round step s).run w).result with
          | .ok (.inl s') => ((rounds round n (step + 1) s').run
              ((round step s).run w).world).trace.filterMap (toolCallResult? s!"step{step}-{i}")
          | _ => []) = [] := by
        split
        · exact rounds_trace_of_lt hacts (Nat.lt_succ_self _) _ _ _
        · rfl
      rw [hrest, List.append_nil]
    · split at h
      · next s' hs =>
        have hne : r.step ≠ step := Nat.ne_of_gt (step_le_of_mem_roundsOf h)
        rw [round_trace_of_ne hacts hne]
        exact ih h
      · cases h

theorem stream_trace (C : Conductor W) (p : Principal) (S : Schedule W) (input : OrchInput) (w : W)
    (id : String) :
    ((C.stream p S input).run w).trace.filterMap (toolCallResult? id) =
      ((rounds (C.roundStreaming p S input.promptText) C.maxSteps 0
        { messages := C.conversation input }).run w).trace.filterMap (toolCallResult? id) := by
  rw [stream]
  cases hr : ((rounds (C.roundStreaming p S input.promptText) C.maxSteps 0
      { messages := C.conversation input }).run w).result with
  | error e => rw [run_bind_error _ hr]
  | ok output =>
    rw [run_bind_ok _ hr, List.filterMap_append]
    exact List.append_nil _

/-- The rounds of a whole run. -/
def roundsOfRun (C : Conductor W) (input : OrchInput)
    (round : Nat → RunState → CM W (RunState ⊕ OrchOutput)) (w : W) : List (Round W) :=
  roundsOf round C.maxSteps 0 { messages := C.conversation input } w

end Conductor

end Tako.Orchestrator
