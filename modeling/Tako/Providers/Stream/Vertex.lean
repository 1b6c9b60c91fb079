import Tako.Providers.Stream.Basic

/-!
# The stream of Vertex AI

`tako-providers/vertex/src/stream.rs`, with the response types and `finish_reason_from_vx` of
`convert.rs`: SSE events, each with a part of a response. A function call comes whole.
-/

namespace Tako.Providers.Vertex

open Transducer

structure VxResponseFunctionCall where
  name : String
  args : Json := .null

structure VxResponsePart where
  text : Option String := none
  functionCall : Option VxResponseFunctionCall := none

structure VxResponseContent where
  parts : List VxResponsePart := []

structure VxCandidate where
  content : Option VxResponseContent := none
  finishReason : Option String := none

structure VxUsage where
  promptTokens : UInt32 := 0
  outputTokens : UInt32 := 0

structure VxResponse where
  candidates : List VxCandidate := []
  usageMetadata : Option VxUsage := none

/-- `serde_json`, and `DefaultHasher` on a name and a text. -/
structure Env where
  parse : String → Except String VxResponse
  text : Json → String
  hash : String → String → UInt64

def finishReasonFromVx : Option String → FinishReason
  | some "STOP" => .stop
  | some "MAX_TOKENS" => .length
  | some "SAFETY" | some "RECITATION" | some "BLOCKLIST" | some "PROHIBITED_CONTENT" =>
    .contentFilter
  | _ => .other

/-- `{:016x}`. -/
def hex16 (n : UInt64) : String :=
  let digits := Nat.toDigits 16 n.toNat
  String.ofList (List.replicate (16 - digits.length) '0' ++ digits)

/-- `last_finish`, `last_usage` and `tool_call_index`. -/
structure Memory extends Providers.Memory where
  toolCallIndex : UInt32 := 0

variable (E : Env)

def vertexToolCallId (name : String) (args : Json) : String :=
  "vertex_call_" ++ hex16 (E.hash name (E.text args))

/-- The text and the tool calls of a candidate, as its parts come. -/
structure Gathered where
  text : String := ""
  toolCalls : List ToolCallDelta := []
  toolCallIndex : UInt32

def Gathered.call (g : Gathered) (fc : VxResponseFunctionCall) : Gathered :=
  { g with
    toolCalls := g.toolCalls ++ [{
      index := g.toolCallIndex
      id := some (vertexToolCallId E fc.name fc.args)
      name := some fc.name
      argumentsFragment := some (E.text fc.args) }]
    toolCallIndex := g.toolCallIndex + 1 }

def Gathered.part (g : Gathered) (p : VxResponsePart) : Gathered :=
  let g := { g with text := g.text ++ p.text.getD "" }
  match p.functionCall with
  | some fc => g.call E fc
  | none => g

def VxCandidate.parts (cand : VxCandidate) : List VxResponsePart :=
  match cand.content with
  | some c => c.parts
  | none => []

/-- A candidate yields one chunk at most. -/
def candidateStep (toolCallIndex : UInt32) (cand : VxCandidate) : List ChatChunk × UInt32 :=
  let g := cand.parts.foldl (Gathered.part E) { toolCallIndex }
  (deltaChunks (if g.text = "" then none else some g.text) g.toolCalls, g.toolCallIndex)

def candidatesStep (toolCallIndex : UInt32) : List VxCandidate → List ChatChunk × UInt32
  | [] => ([], toolCallIndex)
  | cand :: cands =>
    let (chunks, toolCallIndex) := candidateStep E toolCallIndex cand
    let (chunks', toolCallIndex) := candidatesStep toolCallIndex cands
    (chunks ++ chunks', toolCallIndex)

def frameFinish (last : Option FinishReason) (cands : List VxCandidate) : Option FinishReason :=
  cands.foldl (fun last cand =>
    match cand.finishReason with
    | some reason => some (finishReasonFromVx (some reason))
    | none => last) last

def frameUsage (last : Usage) : Option VxUsage → Usage
  | some u => ⟨u.promptTokens, u.outputTokens⟩
  | none => last

/-- What a frame makes of the stream. -/
def frameStep (m : Memory) (frame : VxResponse) : Step Memory ChatChunk :=
  let (chunks, toolCallIndex) := candidatesStep E m.toolCallIndex frame.candidates
  { out := chunks
    state :=
      { lastFinish := frameFinish m.lastFinish frame.candidates
        lastUsage := frameUsage m.lastUsage frame.usageMetadata
        toolCallIndex } }

def Memory.fail (m : Memory) : Memory := { m with lastFinish := some .error }

def reading (data : String) : Reading VxResponse :=
  if data = "" || data = "[DONE]" then .skipped else .parsed (E.parse data)

def streamStep : Memory → Except String String → Step Memory ChatChunk :=
  loopStep Memory.fail (reading E) (frameStep E)

/-- A plain finish counts as one with tool calls where there were some. -/
def finalFinish (m : Memory) : FinishReason :=
  let reason := m.lastFinish.getD .other
  if 0 < m.toolCallIndex ∧ (reason = .stop ∨ reason = .other) then .toolCalls else reason

def intoChatStream : StreamAdapter where
  Item := Except String String
  Memory := Memory
  start := {}
  step := streamStep E
  finishReason := finalFinish
  usage m := m.lastUsage

/-! ## What an item yields -/

def VxResponsePart.speaks (p : VxResponsePart) : Bool :=
  p.text.any (· ≠ "") || p.functionCall.isSome

def VxCandidate.speaks (cand : VxCandidate) : Bool := cand.parts.any VxResponsePart.speaks

def VxResponse.kind (frame : VxResponse) : Kind :=
  if frame.candidates.any VxCandidate.speaks then .speaks else .quiet

/-- The frame has a finish reason. -/
def VxResponse.marks (frame : VxResponse) : Bool := frame.candidates.any (·.finishReason.isSome)

def VxCandidate.functionCalls (cand : VxCandidate) : List VxResponseFunctionCall :=
  cand.parts.filterMap (·.functionCall)

/-- The function calls in an item. -/
def functionCalls (i : Except String String) : List VxResponseFunctionCall :=
  match heard (reading E) i with
  | some frame => frame.candidates.flatMap VxCandidate.functionCalls
  | none => []

variable {E}

def Gathered.speaks (g : Gathered) : Bool := g.text ≠ "" || !g.toolCalls.isEmpty

theorem getD_ne_empty (text : Option String) :
    decide (text.getD "" ≠ "") = text.any (· ≠ "") := by
  cases text <;> rfl

theorem Gathered.part_speaks (g : Gathered) (p : VxResponsePart) :
    (g.part E p).speaks = (g.speaks || p.speaks) := by
  have htext : decide (g.text ++ p.text.getD "" ≠ "") =
      (decide (g.text ≠ "") || p.text.any (· ≠ "")) := by
    rw [← getD_ne_empty, ← Bool.decide_or]
    refine decide_eq_decide.2 ?_
    rw [Ne, String.append_eq_empty_iff, Classical.not_and_iff_not_or_not]
  unfold Gathered.part Gathered.speaks VxResponsePart.speaks
  dsimp only
  cases p.functionCall with
  | none =>
    rw [htext, Option.isSome_none, Bool.or_false, Bool.or_right_comm]
  | some fc =>
    rw [Option.isSome_some, Bool.or_true, Bool.or_true]
    simp [Gathered.call]

theorem Gathered.foldl_speaks (g : Gathered) (parts : List VxResponsePart) :
    (parts.foldl (Gathered.part E) g).speaks =
      (g.speaks || parts.any VxResponsePart.speaks) := by
  induction parts generalizing g with
  | nil => exact (Bool.or_false _).symm
  | cons p parts ih => rw [List.foldl_cons, ih, part_speaks, List.any_cons, Bool.or_assoc]

theorem candidateStep_ne_nil_iff (n : UInt32) (cand : VxCandidate) :
    (candidateStep E n cand).1 ≠ [] ↔ cand.speaks = true := by
  have hspeaks := Gathered.foldl_speaks (E := E) { toolCallIndex := n } cand.parts
  unfold candidateStep VxCandidate.speaks
  dsimp only
  rw [deltaChunks_ne_nil_iff]
  unfold Gathered.speaks at hspeaks
  rw [show decide (("" : String) ≠ "") = false from rfl] at hspeaks
  simp only [List.isEmpty_nil, Bool.not_true, Bool.or_false, Bool.false_or] at hspeaks
  rw [← hspeaks]
  split
  · next h => simp [h]
  · next h => simp [h]

theorem candidatesStep_delta (n : UInt32) (cands : List VxCandidate) :
    ∀ c ∈ (candidatesStep E n cands).1, c.IsDelta := by
  induction cands generalizing n with
  | nil => exact fun _ hc => nomatch hc
  | cons cand cands ih =>
    intro c hc
    rcases List.mem_append.1 hc with hc | hc
    · exact deltaChunks_delta _ _ c hc
    · exact ih _ c hc

theorem candidatesStep_ne_nil_iff (n : UInt32) (cands : List VxCandidate) :
    (candidatesStep E n cands).1 ≠ [] ↔ cands.any VxCandidate.speaks = true := by
  induction cands generalizing n with
  | nil => exact iff_of_false (fun hne => hne rfl) Bool.false_ne_true
  | cons cand cands ih =>
    rw [List.any_cons, Bool.or_eq_true, ← candidateStep_ne_nil_iff n cand,
      ← ih (candidateStep E n cand).2, ← Classical.not_and_iff_not_or_not, ← List.append_eq_nil_iff]
    rfl

theorem frameStep_fits (m : Memory) (frame : VxResponse) :
    Fits (frameStep E m frame) frame.kind :=
  hasKind_of_good (candidatesStep_delta _ _) (candidatesStep_ne_nil_iff _ _) rfl

/-! ## Where the stream ends -/

theorem Gathered.foldl_index (g : Gathered) (parts : List VxResponsePart) :
    (parts.foldl (Gathered.part E) g).toolCallIndex =
      g.toolCallIndex + UInt32.ofNat (parts.filterMap (·.functionCall)).length := by
  induction parts generalizing g with
  | nil => exact (UInt32.add_zero _).symm
  | cons p parts ih =>
    rw [List.foldl_cons, ih, List.filterMap_cons]
    unfold Gathered.part
    dsimp only
    cases p.functionCall with
    | none => rfl
    | some fc =>
      dsimp only [Gathered.call]
      rw [List.length_cons, Nat.add_comm, UInt32.ofNat_add, UInt32.add_assoc]
      rfl

theorem candidatesStep_index (n : UInt32) (cands : List VxCandidate) :
    (candidatesStep E n cands).2 =
      n + UInt32.ofNat (cands.flatMap VxCandidate.functionCalls).length := by
  induction cands generalizing n with
  | nil => exact (UInt32.add_zero n).symm
  | cons cand cands ih =>
    have hcand : (candidateStep E n cand).2 = n + UInt32.ofNat cand.functionCalls.length :=
      Gathered.foldl_index { toolCallIndex := n } cand.parts
    rw [List.flatMap_cons, List.length_append, UInt32.ofNat_add, ← UInt32.add_assoc, ← hcand]
    exact ih _

theorem streamStep_index (m : Memory) (i : Except String String) :
    (streamStep E m i).state.toolCallIndex =
      m.toolCallIndex + UInt32.ofNat (functionCalls E i).length := by
  cases i with
  | error e => exact (UInt32.add_zero _).symm
  | ok data =>
    dsimp only [streamStep, loopStep, functionCalls, heard]
    cases reading E data with
    | skipped | finished => exact (UInt32.add_zero _).symm
    | parsed frame =>
      cases frame with
      | error e => exact (UInt32.add_zero _).symm
      | ok frame => exact candidatesStep_index _ _

theorem frameFinish_of_unmarked {cands : List VxCandidate}
    (h : cands.any (·.finishReason.isSome) = false) (last : Option FinishReason) :
    frameFinish last cands = last := by
  unfold frameFinish
  induction cands with
  | nil => rfl
  | cons cand cands ih =>
    rw [List.any_cons, Bool.or_eq_false_iff] at h
    rw [List.foldl_cons, Option.not_isSome_iff_eq_none.1 (Bool.eq_false_iff.1 h.1)]
    exact ih h.2

theorem streamStep_finish (m : Memory) {data : String}
    (h : loopMarks (reading E) VxResponse.marks (.ok data) = false) :
    (streamStep E m (.ok data)).state.lastFinish = m.lastFinish :=
  loopStep_ok (P := fun m' : Memory => m'.lastFinish = m.lastFinish) rfl fun frame hframe =>
    have hunmarked : frame.marks = false := unmarked_of_heard h hframe
    frameFinish_of_unmarked hunmarked _

theorem reading_ne_finished (data : String) : reading E data ≠ .finished := by
  unfold reading
  split <;> exact (nomatch ·)

theorem streamStep_goesOn (m : Memory) (i : Except String String) :
    (streamStep E m i).goesOn = !isError i :=
  loopStep_goesOn reading_ne_finished fun _ _ => rfl

theorem foldl_memory {items : List (Except String String)} (m : Memory)
    (hcut : ∀ i ∈ items, loopMarks (reading E) VxResponse.marks i = false) (herror : ∀ i ∈ items, isError i = false) :
    (items.foldl (fun m i => (streamStep E m i).state) m).lastFinish = m.lastFinish ∧
    (items.foldl (fun m i => (streamStep E m i).state) m).toolCallIndex =
      m.toolCallIndex + UInt32.ofNat (items.flatMap (functionCalls E)).length := by
  induction items generalizing m with
  | nil => exact ⟨rfl, (UInt32.add_zero _).symm⟩
  | cons i items ih =>
    obtain ⟨hfinish, hindex⟩ := ih (streamStep E m i).state
      (fun j hj => hcut j (List.mem_cons_of_mem i hj))
      fun j hj => herror j (List.mem_cons_of_mem i hj)
    rw [List.foldl_cons, hfinish, hindex, streamStep_index, List.flatMap_cons,
      List.length_append, UInt32.ofNat_add, UInt32.add_assoc]
    refine ⟨?_, rfl⟩
    cases i with
    | error e => cases herror _ List.mem_cons_self
    | ok data => exact streamStep_finish m (hcut _ List.mem_cons_self)

/-- The finish reason where the upstream has sent none. -/
theorem reason_of_cut {items : List (Except String String)}
    (hcut : ∀ i ∈ items, loopMarks (reading E) VxResponse.marks i = false) :
    (intoChatStream E).reason items = if items.any isError then .error
      else if (items.flatMap (functionCalls E)).length % UInt32.size = 0 then .other
      else .toolCalls := by
  change finalFinish (final (streamStep E) {} items) = _
  split
  · next herror =>
    have hfinish : (final (streamStep E) {} items).lastFinish = some .error := by
      refine final_of_stop (I := fun m : Memory => m.lastFinish = some .error)
        (fun m i _ => streamStep_goesOn m i) (fun m i hi => ?_) (List.any_eq_true.1 herror)
      cases i with
      | error e => rfl
      | ok data => cases hi
    unfold finalFinish
    rw [hfinish]
    exact if_neg (by simp)
  · next herror =>
    have hnone (i : Except String String) (hi : i ∈ items) : isError i = false :=
      Bool.eq_false_iff.2 fun he => herror (List.any_eq_true.2 ⟨i, hi, he⟩)
    rw [final_of_goesOn fun m i hi => by rw [streamStep_goesOn, hnone i hi]; rfl]
    obtain ⟨hfinish, hindex⟩ := foldl_memory {} hcut hnone
    have hpos : 0 < (0 : UInt32) + UInt32.ofNat (items.flatMap (functionCalls E)).length ↔
        ¬(items.flatMap (functionCalls E)).length % UInt32.size = 0 := by
      rw [UInt32.zero_add, UInt32.lt_iff_toNat_lt, UInt32.toNat_ofNat']
      exact Nat.pos_iff_ne_zero
    unfold finalFinish
    rw [hfinish, hindex]
    by_cases hzero : (items.flatMap (functionCalls E)).length % UInt32.size = 0
    · rw [if_pos hzero]
      exact if_neg fun h => hpos.1 h.1 hzero
    · rw [if_neg hzero]
      exact if_pos ⟨hpos.2 hzero, .inr rfl⟩

end Tako.Providers.Vertex
