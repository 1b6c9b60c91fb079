import Tako.Orchestrator.Loop

/-!
# Chunked responses

`Streamed` says which chunks a provider may yield in place of a response, and
`Loop.consume_response` that the loop puts the response together again.
-/

namespace Tako.Orchestrator

open Traced

variable {W ρ κ : Type}

/-! ## Chunks -/

/-- An optional text followed by tool calls. -/
def plainMessage (text : String) (calls : List (String × String × Json)) : Message where
  role := .assistant
  content := (if text = "" then [] else [.text text]) ++ calls.map toolCallPart

/-- The chunks that carry the deltas. -/
def deltaChunks (ds : List (Option String × List ToolCallDelta)) : List (Result ChatChunk) :=
  ds.map fun d => .ok (.delta d.1 d.2)

/-- The text of a list of deltas. -/
def deltaText (ds : List (Option String × List ToolCallDelta)) : String :=
  String.join (ds.filterMap (·.1))

/-- The chunks that a provider may yield where it would answer with the response or fail: the text
in pieces and fragments of the tool calls, then the end of the response or the error. -/
inductive Streamed (codec : Codec) : Result ChatResponse → List (Result ChatChunk) → Prop
  | response : FragmentsOf codec (ds.flatMap (·.2)) calls →
    Streamed codec (.ok ⟨plainMessage (deltaText ds) calls, finishReason, usage, raw⟩)
      (deltaChunks ds ++ [.ok (.end finishReason usage)])
  | failure : Streamed codec (.error e) (deltaChunks ds ++ .error e :: rest)

/-! ## What a run asks for -/

inductive Call where
  | request (provider : String) (req : ChatRequest)
  | invoke (name : String) (args : Json)

/-- The requests, up to the stream flag, and the tool invocations. -/
def Act.call : Act W → Option Call
  | .chat provider req _ | .stream provider req _ => some (.request provider { req with stream := false })
  | .invoke name args _ => some (.invoke name args)
  | _ => none

/-- An attempt to stream that does not start counts as one request with the call it falls back
to. -/
def Act.settledCall : Act W → Option Call
  | .stream _ _ (.error _) => none
  | t => t.call

/-- The hooks call no provider and no tool, do not fail, and what they do to the world is not seen
by anyone else. -/
structure Hooks.Silent (R : W → W → Prop) (H : Hooks W ρ κ) : Prop where
  turnStart : ∀ step, Traced.Silent R Act.settledCall (fun _ => True) (H.turnStart step)
  onText : ∀ role step k delta text,
    Traced.Silent R Act.settledCall (fun _ => True) (H.onText role step k delta text)
  onChat : ∀ role step k text,
    Traced.Silent R Act.settledCall (fun _ => True) (H.onChat role step k text)
  onTurn : ∀ role step assistant,
    Traced.Silent R Act.settledCall (fun _ => True) (H.onTurn role step assistant)
  toolEvent : ∀ e, Traced.Silent R Act.settledCall (fun _ => True) (H.toolEvent e)

/-! ## Receiving them -/

namespace Loop

variable {R : W → W → Prop} {H : Hooks W ρ κ}

/-- What the deltas add to what was received. -/
def Received.add (r : Received) (ds : List (Option String × List ToolCallDelta)) : Received :=
  { r with text := r.text ++ deltaText ds, deltas := r.deltas ++ ds.flatMap (·.2) }

theorem receiveText_silent (hH : H.Silent R) (role : ρ) (step : Nat) (r : Received) (k : κ)
    (text : Option String) :
    Silent R Act.settledCall (fun a => a.1 = { r with text := r.text ++ text.getD "" })
      (receiveText H role step r k text) := by
  unfold receiveText
  cases text with
  | none => exact .pure (by simp)
  | some t =>
    dsimp only
    split
    · next ht => exact .pure (by simp [ht])
    · exact .bind (hH.onText _ _ _ _ _) fun _ _ => .pure rfl

/-- What is received of the chunks that a stream yields, or the message of its error. -/
def receive : List ChatChunk → Received → Except String Received
  | [], r => .ok r
  | .delta text calls :: chunks, r =>
    receive chunks { r with text := r.text ++ text.getD "", deltas := r.deltas ++ calls }
  | .error message :: _, _ => .error message
  | .end finishReason usage :: chunks, r => receive chunks { r with finishReason, usage }

/-- The part of `consume` that takes deltas. -/
def receiveDeltas (H : Hooks W ρ κ) (role : ρ) (step : Nat) :
    List (Option String × List ToolCallDelta) → Received → κ → M W (Received × κ)
  | [], r, k => pure (r, k)
  | d :: ds, r, k => do
    .emit (.next (some (.ok (.delta d.1 d.2))))
    let (r, k) ← receiveText H role step r k d.1
    receiveDeltas H role step ds { r with deltas := r.deltas ++ d.2 } k

theorem consume_deltaChunks (role : ρ) (step : Nat) (provider model : String)
    (rest : List (Result ChatChunk)) (ds : List (Option String × List ToolCallDelta)) (r : Received)
    (k : κ) :
    consume H role step provider model (deltaChunks ds ++ rest) r k =
      receiveDeltas H role step ds r k >>= fun a =>
        consume H role step provider model rest a.1 a.2 := by
  induction ds generalizing r k with
  | nil => rfl
  | cons d ds ih =>
    unfold receiveDeltas
    rw [Traced.bind_assoc]
    simp only [Traced.bind_assoc, ← ih]
    rfl

theorem receiveDeltas_silent (hH : H.Silent R) (role : ρ) (step : Nat)
    (ds : List (Option String × List ToolCallDelta)) (r : Received) (k : κ) :
    Silent R Act.settledCall (fun a => a.1 = r.add ds) (receiveDeltas H role step ds r k) := by
  induction ds generalizing r k with
  | nil => exact .pure (by simp [Received.add, deltaText])
  | cons d ds ih =>
    refine .bind (.emit rfl) fun _ _ => .bind (receiveText_silent hH _ _ _ _ _) ?_
    rintro ⟨r', k'⟩ rfl
    refine (ih _ _).weaken fun a ha => ha.trans ?_
    obtain ⟨t, calls⟩ := d
    cases t <;> simp [Received.add, deltaText, String.append_assoc]

/-- The chunks of a response are received as the response. -/
theorem consume_response (hH : H.Silent R) (codec : Codec) (role : ρ) (step : Nat)
    (provider model : String) (k : κ) (hs : Streamed codec (.ok resp) chunks) :
    Silent R Act.settledCall
      (fun a => a.1.message codec = resp.message ∧ a.1.finishReason = resp.finishReason ∧
        a.1.usage = resp.usage)
      (consume H role step provider model chunks {} k) := by
  cases hs with
  | response hfrag =>
    rw [consume_deltaChunks]
    refine .bind (receiveDeltas_silent hH _ _ _ _ _) ?_
    rintro ⟨r, k'⟩ rfl
    refine .bind (.emit rfl) fun _ _ => .bind (.emit rfl) fun _ _ => .pure ⟨?_, rfl, rfl⟩
    simp [Received.message, Received.add, plainMessage, assembleToolCalls_of_fragments hfrag]

/-- The chunks of a failure end in its error. -/
theorem consume_failure (hH : H.Silent R) (codec : Codec) (role : ρ) (step : Nat)
    (provider model : String) (k : κ) (hs : Streamed codec (.error e) chunks) :
    Fails R Act.settledCall e (consume H role step provider model chunks {} k) := by
  cases hs with
  | failure =>
    rw [consume_deltaChunks]
    refine Silent.bind_fails (receiveDeltas_silent hH _ _ _ _ _) fun _ _ => ?_
    exact Silent.bind_fails (.emit rfl) fun _ _ => .throw e

end Loop

end Tako.Orchestrator
