import Tako.Orchestrator.Chunking
import Tako.Orchestrator.Sample

/-!
# Streaming does what running does

`Loop.runStreaming_sim`: the loop over `stream` makes the same requests and invocations as the loop
over `chat`, and ends in the same output or error, if the streams are chunkings of the responses.
The two runs start in related worlds. The relation stands for all that providers, routers, tools,
policies and budgets can tell of a world; what a verifier keeps for itself may differ.
-/

namespace Tako.Orchestrator

open Traced

variable {W ρ κ : Type}

/-! ## Conditions -/

/-- The estimate for a request does not depend on whether it is streamed. -/
def PricesRequests (provider : LlmProvider W) : Prop :=
  ∀ (req : ChatRequest) b,
    provider.estimateCostUsd { req with stream := b } = provider.estimateCostUsd req

/-- The stream of a request is a chunking of its response, or does not start and leaves no mark. -/
def Streams (R : W → W → Prop) (codec : Codec) (p : Principal) (provider : LlmProvider W) : Prop :=
  ∀ (req : ChatRequest) w w', R w w' →
    (∃ chunks, (provider.stream p { req with stream := true } w').1 = .ok chunks ∧
      Streamed codec (provider.chat p { req with stream := false } w).1 chunks ∧
      R (provider.chat p { req with stream := false } w).2
        (provider.stream p { req with stream := true } w').2) ∨
    ∃ e, (provider.stream p { req with stream := true } w').1 = .error e ∧
      R w (provider.stream p { req with stream := true } w').2

/-- Tools, policy and budget do the same in related worlds, and a budget's check leaves the schemas
of the tools alone. -/
structure Indifferent (R : W → W → Prop) (p : Principal) (tools : ToolRegistry W)
    (policy : Option (PolicyEngine W)) (budget : Option (BudgetTracker W)) : Prop where
  schemas : ∀ w w', R w w' → tools.schemas w = tools.schemas w'
  invoke : ∀ name args, Respects R (tools.invoke p name args)
  evaluate : ∀ engine ∈ policy, ∀ ctx, Respects R (engine.evaluate p ctx)
  preCheck : ∀ b ∈ budget, ∀ est tokens, Respects R (b.preCheck p est tokens)
  steady : ∀ b ∈ budget, ∀ est tokens w,
    tools.schemas (b.preCheck p est tokens w).2 = tools.schemas w
  record : ∀ b ∈ budget, ∀ usd usage, Respects R (b.record p usd usage)

/-- A provider that answers the same in related worlds. Its stream, if it is used, is a chunking of
its response, and its price, if there is a budget, that of the request. -/
structure Streamable (R : W → W → Prop) (codec : Codec) (p : Principal)
    (budget : Option (BudgetTracker W)) (streams : LlmProvider W → Bool)
    (provider : LlmProvider W) : Prop where
  chat : ∀ req, Respects R (provider.chat p req)
  stream : streams provider = true → Streams R codec p provider
  price : budget.isSome = true → PricesRequests provider

/-- A loop whose parts do the same in related worlds, and whose providers' streams are chunkings. -/
structure Loop.Streamable (R : W → W → Prop) (L : Loop W ρ) (streams : LlmProvider W → Bool) :
    Prop extends Indifferent R L.principal L.tools L.policy L.budget where
  pick : ∀ messages, Sim R Act.settledCall
    (fun a b => a = b ∧ Orchestrator.Streamable R L.codec L.principal L.budget streams a.2)
    (L.pick messages) (L.pick messages)

/-! ## The parts of a turn -/

namespace Loop

variable {R : W → W → Prop} {L : Loop W ρ} {H : Hooks W ρ κ} {streams : LlmProvider W → Bool}

theorem gate_sim (hL : L.Streamable R streams) (model : String) (messages : List Message)
    (name : String) (args : Json) :
    Sim R Act.settledCall Eq (L.gate model messages name args) (L.gate model messages name args) := by
  unfold gate
  split
  · exact .pure rfl
  · next engine hengine =>
    refine .bind (.call_of_respects (hL.evaluate engine hengine _) fun _ _ _ => rfl) ?_
    rintro d _ rfl
    exact .ofExcept _

theorem runTools_sim (hL : L.Streamable R streams) {event : OrchEvent → M W Unit}
    (hev : ∀ e, Silent R Act.settledCall (fun _ => True) (event e)) (step : Nat) (model : String)
    (messages : List Message) (calls : List (String × String × Json)) :
    Sim R Act.settledCall Eq (L.runTools (fun _ => pure ()) step model messages calls)
      (L.runTools event step model messages calls) := by
  induction calls with
  | nil => exact .pure rfl
  | cons call calls ih =>
    obtain ⟨id, name, args⟩ := call
    refine .bind (gate_sim hL _ _ _ _) fun _ _ _ => .bind ((hev _).sim ()) fun _ _ _ => ?_
    refine .bind (.attempt (.call_of_respects (hL.invoke name args) fun _ _ _ => rfl)) ?_
    rintro r _ rfl
    refine .bind ((hev _).sim ()) fun _ _ _ => .bind ih ?_
    rintro results _ rfl
    exact .pure rfl

theorem finishTurn_sim (hL : L.Streamable R streams) {event : OrchEvent → M W Unit}
    (hev : ∀ e, Silent R Act.settledCall (fun _ => True) (event e)) (step : Nat) (model : String)
    (s : LoopState) (assistant : Message) (fr : FinishReason) (usage : Usage) :
    Sim R Act.settledCall Eq (L.finishTurn (fun _ => pure ()) step model s assistant fr usage)
      (L.finishTurn event step model s assistant fr usage) := by
  unfold finishTurn
  dsimp only
  split
  · exact .pure rfl
  · refine .bind (runTools_sim hL hev _ _ _ _) ?_
    rintro results _ rfl
    exact .pure rfl

/-- A response, and what `respond` makes of it. -/
def SameResponse (resp : ChatResponse) (a : Message × FinishReason × Usage × κ) : Prop :=
  a.1 = resp.message ∧ a.2.1 = resp.finishReason ∧ a.2.2.1 = resp.usage

theorem chatFallback_sim (hH : H.Silent R) {provider : LlmProvider W}
    (hp : ∀ req, Respects R (provider.chat L.principal req)) (role : ρ) (step : Nat) (model : String)
    (messages : List Message) (k : κ) {w w' : W} (hR : R w w')
    (hschemas : L.tools.schemas w' = schemas) :
    SimAt R Act.settledCall SameResponse
      (chat provider L.principal (L.request model messages schemas false))
      (L.chatFallback H role step provider model messages k) w w' := by
  subst hschemas
  have hchat : Sim R Act.settledCall SameResponse
      (chat provider L.principal (L.request model messages (L.tools.schemas w') false) >>= pure)
      (chat provider L.principal (L.request model messages (L.tools.schemas w') false) >>=
        fun resp => do
          let text := resp.message.text
          let k ← if text = "" then pure k else H.onChat role step k text
          pure (resp.message, resp.finishReason, resp.usage, k)) := by
    refine .bind (.call_of_respects (hp _) fun _ _ _ => rfl) ?_
    rintro resp _ rfl
    dsimp only
    split
    · exact .pure ⟨rfl, rfl, rfl⟩
    · exact .silent_bind (hH.onChat _ _ _ _) fun _ _ => .pure ⟨rfl, rfl, rfl⟩
  rw [Traced.bind_pure] at hchat
  exact hchat w w' hR

/-- `Streams` for the requests of a loop. -/
theorem streams_request {provider : LlmProvider W} (hs : Streams R L.codec L.principal provider)
    (model : String) (messages : List Message) (schemas : List ToolSchema) {w w' : W}
    (hR : R w w') :
    (∃ chunks,
      (provider.stream L.principal (L.request model messages schemas true) w').1 = .ok chunks ∧
      Streamed L.codec
        (provider.chat L.principal (L.request model messages schemas false) w).1 chunks ∧
      R (provider.chat L.principal (L.request model messages schemas false) w).2
        (provider.stream L.principal (L.request model messages schemas true) w').2) ∨
    ∃ e, (provider.stream L.principal (L.request model messages schemas true) w').1 = .error e ∧
      R w (provider.stream L.principal (L.request model messages schemas true) w').2 :=
  hs (L.request model messages schemas false) w w' hR

/-- What the loop makes of the chunks, beside the answer of `chat`. -/
theorem consume_sim (hH : H.Silent R) {codec : Codec} {r : Result ChatResponse}
    (hs : Streamed codec r chunks) (role : ρ) (step : Nat) (provider model : String) (k : κ) :
    Sim R Act.settledCall SameResponse (Traced.ofExcept r : M W ChatResponse) (do
      let (r, k) ← consume H role step provider model chunks {} k
      pure (r.message codec, r.finishReason, r.usage, k)) := by
  cases r with
  | ok resp =>
    refine .silent_bind (consume_response hH codec role step provider model k hs) ?_
    rintro ⟨r, k'⟩ hr
    exact .pure hr
  | error e =>
    exact .of_fails ((consume_failure hH codec role step provider model k hs).bind _)

/-- A streamed or buffered answer is the response of `chat`. -/
theorem respond_sim (hL : L.Streamable R streams) (hH : H.Silent R) {provider : LlmProvider W}
    (hp : Orchestrator.Streamable R L.codec L.principal L.budget H.streams provider) (role : ρ) (step : Nat)
    (model : String) (messages : List Message) (k : κ) {w w' : W} (hR : R w w')
    (hschemas : L.tools.schemas w' = schemas) :
    SimAt R Act.settledCall SameResponse
      (chat provider L.principal (L.request model messages schemas false))
      (L.respond H role step provider model messages
        (L.request model messages schemas (H.streams provider)) k) w w' := by
  unfold respond
  split
  · next hstreams =>
    rw [hstreams]
    rcases streams_request (hp.stream hstreams) model messages schemas hR with
      ⟨chunks, hstart, hchunks, hR'⟩ | ⟨e, hstart, hR'⟩
    · refine .call_bind (congrArg Except.ok hstart) ?_ ?_
      · simp only [attempt, stream, call, hstart]
        rfl
      · exact consume_sim hH hchunks role step provider.id model k _ _ hR'
    · refine .skip (congrArg Except.ok hstart) ?_ ?_
      · simp only [attempt, stream, call, hstart]
        rfl
      · refine chatFallback_sim hH hp.chat _ _ _ _ _ hR' ?_
        exact (hL.schemas w _ hR').symm.trans ((hL.schemas w w' hR).trans hschemas)
  · exact chatFallback_sim hH hp.chat _ _ _ _ _ hR hschemas

/-- A budget is asked for the same price. -/
theorem estimate_request {provider : LlmProvider W}
    (hp : L.budget.isSome = true → PricesRequests provider) (model : String)
    (messages : List Message) (schemas : List ToolSchema) (b : Bool) (hb : L.budget.isSome = true) :
    provider.estimateCostUsd (L.request model messages schemas false) =
      provider.estimateCostUsd (L.request model messages schemas b) :=
  (hp hb (L.request model messages schemas false) b).symm

theorem preCheck_sim (hL : L.Streamable R streams) {est est' : Rat}
    (hest : L.budget.isSome = true → est = est') (tokens : UInt32) :
    Sim R Act.settledCall Eq (preCheck L.budget L.principal est tokens)
      (preCheck L.budget L.principal est' tokens) := by
  unfold preCheck
  split
  · next b hb =>
    rw [hest (by rw [hb]; rfl)]
    exact .call_of_respects (hL.preCheck b hb _ _) fun _ _ _ => rfl
  · exact .pure rfl

theorem record_sim (hL : L.Streamable R streams) {usd usd' : Rat}
    (husd : L.budget.isSome = true → usd = usd') (usage : Usage) :
    Sim R Act.settledCall Eq (record L.budget L.principal usd usage)
      (record L.budget L.principal usd' usage) := by
  unfold record
  split
  · next b hb =>
    rw [husd (by rw [hb]; rfl)]
    exact .call_of_respects (hL.record b hb _ _) fun _ _ _ => rfl
  · exact .pure rfl

theorem preCheck_schemas (hL : L.Streamable R streams) (est : Rat) (tokens : UInt32) (w : W) :
    L.tools.schemas ((preCheck L.budget L.principal est tokens).run w).world =
      L.tools.schemas w := by
  unfold preCheck
  split
  · next b hb => exact hL.steady b hb est tokens w
  · rfl

/-! ## The loops -/

theorem streamTurn_sim (hL : L.Streamable R H.streams) (hH : H.Silent R) (step : Nat)
    (s : LoopState) (k : κ) :
    Sim R Act.settledCall (fun s' a => s' = a.1) (L.turn step s) (L.streamTurn H step s k) := by
  unfold turn streamTurn
  refine .silent_bind (hH.turnStart _) fun _ _ => .bind (hL.pick _) ?_
  rintro ⟨role, provider⟩ _ ⟨rfl, hp⟩ w w' hR
  refine SimAt.bind (Q := fun a b => a = b ∧ L.tools.schemas w' = a)
    ⟨.ok ⟨hL.schemas w w' hR, (hL.schemas w w' hR).symm⟩, hR, rfl⟩ ?_
  rintro schemas _ ⟨rfl, hschemas⟩ -
  have hest := estimate_request hp.price (modelOf provider.id) s.messages schemas
    (H.streams provider)
  refine (preCheck_sim hL hest _ w w' hR).bind fun _ _ _ hR₁ => ?_
  refine (respond_sim hL hH hp role step _ _ k hR₁ ?_).bind ?_
  · exact (preCheck_schemas hL _ _ _).trans hschemas
  · rintro resp ⟨assistant, fr, usage, k'⟩ ⟨rfl, rfl, rfl⟩ hR₂
    refine Sim.bind (record_sim hL hest _)
      (fun _ _ _ => .silent_bind (hH.onTurn _ _ _) fun _ _ => ?_) _ _ hR₂
    exact (finishTurn_sim hL hH.toolEvent _ _ _ _ _ _).map_right fun _ _ h => h

theorem streamTurns_sim (hL : L.Streamable R H.streams) (hH : H.Silent R) (n step : Nat)
    (s : LoopState) (k : κ) :
    Sim R Act.settledCall Eq (turns L.turn n step s) (L.streamTurns H n step s k) := by
  induction n generalizing step s k with
  | zero => exact .pure rfl
  | succ n ih =>
    refine .bind (streamTurn_sim hL hH step s k) ?_
    rintro s' ⟨_, k'⟩ rfl
    dsimp only
    split
    · exact .pure rfl
    · exact ih _ _ _

theorem turn_sim (hL : L.Streamable R streams) (step : Nat) (s : LoopState) :
    Sim R Act.settledCall Eq (L.turn step s) (L.turn step s) := by
  unfold turn
  refine .bind (hL.pick _) ?_
  rintro ⟨role, provider⟩ _ ⟨rfl, hp⟩
  refine .bind (.read hL.schemas) ?_
  rintro schemas _ rfl
  refine .bind (preCheck_sim hL (fun _ => rfl) _) fun _ _ _ => ?_
  refine .bind (.call_of_respects (hp.chat _) fun _ _ _ => rfl) ?_
  rintro resp _ rfl
  refine .bind (record_sim hL (fun _ => rfl) _) fun _ _ _ => ?_
  exact finishTurn_sim hL (fun _ => .pure trivial) _ _ _ _ _ _

theorem turns_sim (hL : L.Streamable R streams) (n step : Nat) (s : LoopState) :
    Sim R Act.settledCall Eq (turns L.turn n step s) (turns L.turn n step s) := by
  induction n generalizing step s with
  | zero => exact .pure rfl
  | succ n ih =>
    refine .bind (turn_sim hL step s) ?_
    rintro s' _ rfl
    split
    · exact .pure rfl
    · exact ih _ _

/-- A run does the same in related worlds. -/
theorem run_sim (hL : L.Streamable R streams) (messages : List Message) :
    Sim R Act.settledCall Eq (L.run messages) (L.run messages) := by
  refine .bind (turns_sim hL _ _ _) ?_
  rintro s _ rfl
  exact .pure rfl

theorem runStreaming_sim (hL : L.Streamable R H.streams) (hH : H.Silent R)
    (messages : List Message) (k : κ) :
    Sim R Act.settledCall Eq (L.run messages) (L.runStreaming H messages k) := by
  refine .bind (streamTurns_sim hL hH _ _ _ _) ?_
  rintro s _ rfl
  exact .pure rfl

end Loop

/-! ## `SingleAgent` and `Trinity` -/

/-- Two runs make the same calls, and the streamed one ends with a `Final` event that carries the
output of the other, or in the same error. -/
structure Agrees (view : Act W → Option Call) (o : Outcome W (Act W) TakoError OrchOutput)
    (o' : Outcome W (Act W) TakoError Unit) : Prop where
  calls : o.trace.filterMap view = o'.trace.filterMap view
  output : ∀ output, o.result = .ok output →
    o'.result = .ok () ∧ o'.trace.getLast? = some (.yielded (.final output))
  error : ∀ e, o.result = .error e → o'.result = .error e

theorem agrees_of_sim {R : W → W → Prop} {x y : M W OrchOutput}
    (h : Sim R Act.settledCall Eq x y) (hR : R w w') :
    Agrees Act.settledCall (x.run w) ((y >>= fun output => yield (.final output)).run w') := by
  obtain ⟨hr, -, ht⟩ := h w w' hR
  have hr := hr.eq
  cases hy : (y.run w').result with
  | ok output =>
    rw [run_bind_ok _ hy]
    refine ⟨?_, fun output' hx => ⟨rfl, ?_⟩, fun e hx => ?_⟩
    · simp [ht, yield, emit, Act.settledCall, Act.call]
    · obtain rfl : output' = output := Except.ok.inj (hx.symm.trans (hr.trans hy))
      simp [yield, emit]
    · rw [hr, hy] at hx
      cases hx
  | error e =>
    rw [run_bind_error _ hy]
    refine ⟨ht, fun output hx => ?_, fun e' hx => ?_⟩
    · rw [hr, hy] at hx
      cases hx
    · rw [hr, hy] at hx
      cases hx
      rfl

namespace SingleAgent

/-- An agent whose parts do the same in related worlds, and whose providers' streams are
chunkings. -/
structure Streamable (R : W → W → Prop) (A : SingleAgent W) (p : Principal) : Prop extends
    Indifferent R p A.tools A.policy A.budget where
  providers : ∀ provider ∈ A.provider :: A.candidates,
    Orchestrator.Streamable R A.codec p A.budget (·.capabilities.supportsStreaming) provider
  router : ∀ r ∈ A.router, ∀ req cs, Respects R (r.route p req cs)

variable {R : W → W → Prop} {A : SingleAgent W} {p : Principal}

theorem pickProvider_sim (h : A.Streamable R p) (messages : List Message) :
    Sim R Act.settledCall
      (fun a b => a = b ∧
        Orchestrator.Streamable R A.codec p A.budget (·.capabilities.supportsStreaming) a)
      (A.pickProvider p messages) (A.pickProvider p messages) := by
  have hprimary := h.providers _ List.mem_cons_self
  unfold pickProvider pickProviderStatic
  split
  · exact .pure ⟨rfl, hprimary⟩
  · next router hrouter =>
    split
    · exact .pure ⟨rfl, hprimary⟩
    · refine .bind (.call_of_respects (h.router router hrouter _ _) fun _ _ _ => rfl) ?_
      rintro decision _ rfl
      split
      · next provider hfind =>
        exact .pure ⟨rfl, h.providers _ (List.mem_of_find?_eq_some hfind)⟩
      · exact .throw _

theorem loop_streamable (h : A.Streamable R p) :
    (A.loop p).Streamable R (hooks (W := W)).streams where
  toIndifferent := h.toIndifferent
  pick messages := by
    refine .bind (pickProvider_sim h messages) ?_
    rintro provider _ ⟨rfl, hp⟩
    exact .pure ⟨rfl, hp⟩

theorem hooks_silent : (hooks : Hooks W Unit Unit).Silent R where
  turnStart _ := .emit rfl
  onText _ _ _ _ _ := .emit rfl
  onChat _ _ _ _ := .emit rfl
  onTurn _ _ _ := .pure trivial
  toolEvent _ := .emit rfl

end SingleAgent

/-- A verifier never fails, and what it keeps is not seen by anyone else. -/
structure Verifier.Inert (R : W → W → Prop) (p : Principal) (v : Verifier W) : Prop where
  score : ∀ prompt output w w', R w w' → (∃ s, (v.score p prompt output w').1 = .ok s) ∧
    R w (v.score p prompt output w').2
  evaluateStreaming : ∀ text w w', R w w' → (∃ s, (v.evaluateStreaming p text w').1 = .ok s) ∧
    R w (v.evaluateStreaming p text w').2

namespace Trinity

/-- The same for `Trinity`, with a verifier that does not fail. -/
structure Streamable (R : W → W → Prop) (T : Trinity W) (p : Principal) : Prop extends
    Indifferent R p T.tools T.policy T.budget where
  providers : ∀ role ∈ T.roles,
    Orchestrator.Streamable R T.codec p T.budget (·.capabilities.supportsStreaming) role.2
  router : ∀ req cs, Respects R (T.router.route p req cs)
  verifier : ∀ v ∈ T.verifier, v.Inert R p

variable {R : W → W → Prop} {T : Trinity W} {p : Principal}

theorem mem_roles_of_pick {roles : List (String × LlmProvider W)}
    (h : pickProviderStatic roles decisionId = some picked) : picked ∈ roles := by
  unfold pickProviderStatic at h
  dsimp only at h
  rw [Option.or_eq_some_iff, Option.or_eq_some_iff] at h
  rcases h with (h | ⟨-, h⟩) | ⟨-, h⟩
  · split at h
    · exact List.mem_of_find?_eq_some h
    · cases h
  · exact List.mem_of_find?_eq_some h
  · exact List.mem_of_find?_eq_some h

theorem loop_streamable (h : T.Streamable R p) (prompt : String) :
    (T.loop p).Streamable R (T.hooks p prompt).streams where
  toIndifferent := h.toIndifferent
  pick messages := by
    refine .bind (.call_of_respects (h.router _ _) fun _ _ _ => rfl) ?_
    rintro decision _ rfl
    split
    · next picked hpick => exact .pure ⟨rfl, h.providers _ (mem_roles_of_pick hpick)⟩
    · exact .throw _

theorem scoreDelta_silent (h : T.Streamable R p) (role : String) (step : Nat) (text : String) :
    Silent R Act.settledCall (fun _ => True) (T.scoreDelta p role step text) := by
  unfold scoreDelta
  split
  · exact .pure trivial
  · next v hv =>
    have hcall := (h.verifier v hv).evaluateStreaming text
    refine .bind (P := fun _ => True) (.call ?_ fun _ _ => rfl) fun score _ => ?_
    · intro w w' hR
      obtain ⟨⟨s, hs⟩, hw⟩ := hcall w w' hR
      exact ⟨⟨s, hs, trivial⟩, hw⟩
    · split
      · exact .emit rfl
      · exact .pure trivial

theorem scoreTurn_silent (h : T.Streamable R p) (prompt role : String) (step : Nat)
    (assistant : Message) :
    Silent R Act.settledCall (fun _ => True) (T.scoreTurn p prompt role step assistant) := by
  unfold scoreTurn
  split
  · exact .pure trivial
  · next v hv =>
    refine .bind (P := fun _ => True) (.call ?_ fun _ _ => rfl) fun score _ => .emit rfl
    intro w w' hR
    obtain ⟨⟨s, hs⟩, hw⟩ := (h.verifier v hv).score prompt assistant.text w w' hR
    exact ⟨⟨s, hs, trivial⟩, hw⟩

theorem hooks_silent (h : T.Streamable R p) (prompt : String) : (T.hooks p prompt).Silent R where
  turnStart _ := .emit rfl
  onText _ _ _ _ _ := .bind (.emit rfl) fun _ _ => scoreDelta_silent h _ _ _
  onChat _ _ _ _ := .emit rfl
  onTurn := scoreTurn_silent h prompt
  toolEvent _ := .emit rfl

end Trinity

/-! ## A sample -/

theorem streamed_done : Streamed Sample.codec (.ok Sample.done) (Sample.chunks Sample.done) := by
  let ds : List (Option String × List ToolCallDelta) := [(some "done", []), (none, [])]
  have hfrag : FragmentsOf Sample.codec (ds.flatMap (·.2)) [] := ⟨[], .nil, by simp [ds], .nil⟩
  exact .response hfrag

theorem streamed_callTool :
    Streamed Sample.codec (.ok Sample.callTool) (Sample.chunks Sample.callTool) := by
  let d : ToolCallDelta := { index := 0, id := "c1", name := "rm", argumentsFragment := "\x7b\x7d" }
  let ds : List (Option String × List ToolCallDelta) := [(some "", []), (none, [d])]
  have hfrag : FragmentsOf Sample.codec (ds.flatMap (·.2)) [("c1", "rm", .object [])] := by
    refine ⟨[0], List.pairwise_singleton _ _, by simp [ds, d], .cons ?_ .nil⟩
    exact ⟨by simp [ds, d], by simp [ds, d], by simp [ds, d], by simp [ds, d], rfl⟩
  exact .response hfrag

theorem streamed_toolThenDone (h : Sample.toolThenDone n = some resp) :
    Streamed Sample.codec (.ok resp) (Sample.chunks resp) := by
  cases n with
  | zero =>
    cases h
    exact streamed_callTool
  | succ n =>
    cases h
    exact streamed_done

theorem streams_scripted (p : Principal)
    (h : ∀ n resp, script n = some resp → Streamed codec (.ok resp) (Sample.chunks resp)) :
    Streams Eq codec p (Sample.scripted script) := by
  rintro req n _ rfl
  simp only [Sample.scripted]
  cases hs : script n with
  | none => exact .inr ⟨_, rfl, rfl⟩
  | some resp => exact .inl ⟨_, rfl, h n resp hs, rfl⟩

theorem respects_eq (h : W → Result α × W) : Respects Eq h := by
  rintro w _ rfl
  exact ⟨rfl, rfl⟩

theorem streamable_scripted (p : Principal)
    (h : ∀ n resp, script n = some resp → Streamed codec (.ok resp) (Sample.chunks resp)) :
    Streamable Eq codec p budget (·.capabilities.supportsStreaming) (Sample.scripted script) :=
  ⟨fun _ => respects_eq _, fun _ => streams_scripted p h, fun _ _ _ => rfl⟩

theorem indifferent_sample (p : Principal) : Indifferent Eq p Sample.tools none none where
  schemas _ _ _ := rfl
  invoke _ _ := respects_eq _
  evaluate _ h := by cases h
  preCheck _ h := by cases h
  steady _ h := by cases h
  record _ h := by cases h

theorem agent_streamable (p : Principal) : (Sample.agent Sample.toolThenDone).Streamable Eq p where
  toIndifferent := indifferent_sample p
  providers := List.forall_mem_singleton.2 (streamable_scripted p fun _ _ => streamed_toolThenDone)
  router _ h := by cases h

/-- A trinity with a verifier. -/
def verified : Trinity Nat :=
  { Sample.trinity Sample.toolThenDone with verifier := some (Sample.verifier (.ok 1)) }

theorem verified_streamable (p : Principal) : verified.Streamable Eq p where
  toIndifferent := indifferent_sample p
  providers := List.forall_mem_singleton.2 (streamable_scripted p fun _ _ => streamed_toolThenDone)
  router _ _ := respects_eq _
  verifier v h := by
    obtain rfl : Sample.verifier (.ok 1) = v := Option.some.inj h
    exact ⟨fun _ _ _ _ h => ⟨⟨1, rfl⟩, h⟩, fun _ _ _ h => ⟨⟨none, rfl⟩, h⟩⟩

/-- `stream` does what `run` does. -/
theorem stream_agrees_with_run (R : W → W → Prop) (A : SingleAgent W) (T : Trinity W)
    (p : Principal) (hA : A.Streamable R p) (hT : T.Streamable R p) (input : OrchInput) (w w' : W)
    (hR : R w w') :
    Agrees Act.settledCall ((A.run p input).run w) ((A.stream p input).run w') ∧
      Agrees Act.settledCall ((T.run p input).run w) ((T.stream p input).run w') :=
  ⟨agrees_of_sim (Loop.runStreaming_sim (SingleAgent.loop_streamable hA) SingleAgent.hooks_silent
      _ _) hR,
    agrees_of_sim (Loop.runStreaming_sim (Trinity.loop_streamable hT _)
      (Trinity.hooks_silent hT _) _ _) hR⟩

theorem stream_agrees_with_run_sample :
    Agrees Act.settledCall
      (((Sample.agent Sample.toolThenDone).run Sample.acme Sample.input).run 0)
      (((Sample.agent Sample.toolThenDone).stream Sample.acme Sample.input).run 0) ∧
    Agrees Act.settledCall ((verified.run Sample.acme Sample.input).run 0)
      ((verified.stream Sample.acme Sample.input).run 0) :=
  stream_agrees_with_run Eq _ _ _ (agent_streamable _) (verified_streamable _) _ _ _ rfl

/-! ## Where they differ -/

/-- Where a provider answers, its stream is a chunking of the answer. -/
def Chunked (codec : Codec) (p : Principal) (provider : LlmProvider W) : Prop :=
  ∀ (req : ChatRequest) w resp, (provider.chat p { req with stream := false } w).1 = .ok resp →
    ∃ chunks, Streamed codec (.ok resp) chunks ∧
      provider.stream p { req with stream := true } w =
        (.ok chunks, (provider.chat p { req with stream := false } w).2)

theorem chunked_scripted (codec : Codec) (p : Principal)
    (h : ∀ n resp, script n = some resp → Streamed codec (.ok resp) (Sample.chunks resp)) :
    Chunked codec p (Sample.scripted script) := by
  intro req n resp hchat
  simp only [Sample.scripted] at hchat ⊢
  cases hs : script n with
  | none =>
    rw [hs] at hchat
    cases hchat
  | some resp' =>
    rw [hs] at hchat
    obtain rfl : resp' = resp := Except.ok.inj hchat
    exact ⟨_, h n resp' hs, rfl⟩

/-- The verifier fails on the finished turn. -/
def unverified : Trinity Nat :=
  { Sample.trinity fun _ => some Sample.done with
    verifier := some (Sample.verifier (.error (.transport "closed"))) }

/-- A request to stream is priced above the budget. -/
def overpriced : SingleAgent Nat :=
  { Sample.agent fun _ => some Sample.done with
    provider := { Sample.scripted fun _ => some Sample.done with
      estimateCostUsd := fun req => if req.stream then 2 else 1 }
    budget := some {
      preCheck := fun _ est _ n =>
        (if est = 1 then .ok () else .error (.budgetExhausted "request"), n)
      record := fun _ _ _ n => (.ok (), n) } }

/-- The provider never answers. -/
def unanswered : SingleAgent Nat := Sample.agent fun _ => none

/-- A tool is registered while the budget is checked. -/
def registering : SingleAgent Nat :=
  { Sample.agent fun _ => some Sample.done with
    provider := { Sample.scripted fun _ => some Sample.done with capabilities := {} }
    tools := { Sample.tools with
      schemas := fun n => if n = 0 then [] else [⟨"rm", "", .null, none⟩] }
    budget := some {
      preCheck := fun _ _ _ n => (.ok (), n + 1)
      record := fun _ _ _ n => (.ok (), n) } }

theorem chunked_done (p : Principal) :
    Chunked Sample.codec p (Sample.scripted fun _ => some Sample.done) :=
  chunked_scripted _ p fun _ _ h => Option.some.inj h ▸ streamed_done

/-- Number of tools that are offered with a request. -/
def Call.offered : Call → Nat
  | .request _ req => req.tools.length
  | .invoke _ _ => 0

/-- `Trinity` consults a verifier only when it streams; an estimate may depend on the stream flag; a
stream that does not start is followed by a second request; the schemas are read again for a request
that is not streamed. -/
theorem stream_differs_from_run :
    (¬∀ (T : Trinity Nat) (p : Principal) (input : OrchInput) (w : Nat),
      (∀ role ∈ T.roles, Chunked T.codec p role.2) →
      Agrees Act.call ((T.run p input).run w) ((T.stream p input).run w)) ∧
    (¬∀ (A : SingleAgent Nat) (p : Principal) (input : OrchInput) (w : Nat),
      (∀ provider ∈ A.provider :: A.candidates, Chunked A.codec p provider) →
      Agrees Act.call ((A.run p input).run w) ((A.stream p input).run w)) ∧
    (¬∀ (A : SingleAgent Nat) (p : Principal) (input : OrchInput) (w : Nat),
      (∀ provider ∈ A.provider :: A.candidates,
        Chunked A.codec p provider ∧ PricesRequests provider) →
      Agrees Act.call ((A.run p input).run w) ((A.stream p input).run w)) ∧
    ¬∀ (A : SingleAgent Nat) (p : Principal) (input : OrchInput) (w : Nat),
      (∀ provider ∈ A.provider :: A.candidates,
        Chunked A.codec p provider ∧ PricesRequests provider ∧
          ∀ req n, ∃ resp, (provider.chat p req n).1 = .ok resp) →
      Agrees Act.call ((A.run p input).run w) ((A.stream p input).run w) := by
  have hdone := chunked_done Sample.acme
  refine ⟨fun h => ?_, fun h => ?_, fun h => ?_, fun h => ?_⟩
  · have hout := h unverified Sample.acme Sample.input 0 (List.forall_mem_singleton.2 hdone)
    exact absurd (hout.output _ rfl).1 (by intro hr; cases hr)
  · have hout := h overpriced Sample.acme Sample.input 0 (List.forall_mem_singleton.2 hdone)
    exact absurd (hout.output _ rfl).1 (by intro hr; cases hr)
  · have hnone : Chunked Sample.codec Sample.acme (Sample.scripted fun _ => none) :=
      chunked_scripted _ _ fun _ _ h => by cases h
    have hcalls := (h unanswered Sample.acme Sample.input 0
      (List.forall_mem_singleton.2 ⟨hnone, fun _ _ => rfl⟩)).calls
    exact absurd (congrArg List.length hcalls) (by decide)
  · have hcalls := (h registering Sample.acme Sample.input 0
      (List.forall_mem_singleton.2 ⟨hdone, fun _ _ => rfl, fun _ _ => ⟨_, rfl⟩⟩)).calls
    exact absurd (congrArg (List.map Call.offered) hcalls) (by decide)

end Tako.Orchestrator
