import Tako.Core.Chat
import Tako.Theory.Transducer

/-!
# Stream adapters

Each provider has its own `into_chat_stream`, from what the upstream sends to `ChatChunk`s. All of
them are transducers that remember the last finish reason and the last usage, and end with one
`End`.
-/

namespace Tako

open Transducer

namespace ChatChunk

def IsDelta : ChatChunk → Prop
  | .delta _ _ => True
  | _ => False

def IsError : ChatChunk → Prop
  | .error _ => True
  | _ => False

theorem IsDelta.not_isError (c : ChatChunk) (h : c.IsDelta) : ¬c.IsError := by
  cases c <;> first | exact h.elim | exact id

end ChatChunk

namespace Providers

/-- The list of items ends where the upstream does. -/
structure StreamAdapter where
  Item : Type
  Memory : Type
  start : Memory
  step : Memory → Item → Step Memory ChatChunk
  finishReason : Memory → FinishReason
  usage : Memory → Usage

namespace StreamAdapter

variable (A : StreamAdapter)

def reason (items : List A.Item) : FinishReason := A.finishReason (final A.step A.start items)

/-- The chunks of the stream. -/
def chunks (items : List A.Item) : List ChatChunk :=
  emit A.step A.start items ++ [.end (A.reason items) (A.usage (final A.step A.start items))]

end StreamAdapter

/-- The contract of `ChatChunk`: deltas, at most one error, one end. -/
def Conforms (chunks : List ChatChunk) : Prop :=
  ∃ deltas errors finishReason usage, chunks = deltas ++ errors ++ [.end finishReason usage] ∧
    (∀ c ∈ deltas, c.IsDelta) ∧ (errors = [] ∨ ∃ message, errors = [.error message])

/-- What most adapters remember. -/
structure Memory where
  lastFinish : Option FinishReason := none
  lastUsage : Usage := {}

/-- After an error of the body. -/
def Memory.fail (m : Memory) : Memory := { m with lastFinish := some .error }

/-- No finish reason has come from the upstream. -/
def Memory.Cut (m : Memory) : Prop := m.lastFinish = none ∨ m.lastFinish = some .error

/-- The body fails. -/
def isError {α : Type} : Except String α → Bool
  | .error _ => true
  | .ok _ => false

/-- A delta, if there is something in it. -/
def deltaChunks (text : Option String) (toolCalls : List ToolCallDelta) : List ChatChunk :=
  if text.isSome || !toolCalls.isEmpty then [.delta text toolCalls] else []

/-! ## The loop

All adapters but Bedrock's read text: events' data, or lines. Each says which texts it passes over,
which one ends the loop, and how it parses the others. -/

/-- What a text comes to. -/
inductive Reading (φ : Type) where
  | skipped
  | finished
  | parsed (frame : Except String φ)

section
variable {σ φ : Type} (fail : σ → σ) (read : String → Reading φ)
  (frameStep : σ → φ → Step σ ChatChunk)

/-- An iteration of the loop, on a text or an error of the body. -/
def loopStep (m : σ) : Except String String → Step σ ChatChunk
  | .error e => { out := [.error e], state := fail m, goesOn := false }
  | .ok text =>
    match read text with
    | .skipped => { state := m }
    | .finished => { state := m, goesOn := false }
    | .parsed (.error e) => { out := [.error s!"invalid frame: {e}"], state := m }
    | .parsed (.ok frame) => frameStep m frame

/-- The frame in an item. -/
def heard : Except String String → Option φ
  | .error _ => none
  | .ok text =>
    match read text with
    | .parsed (.ok frame) => some frame
    | _ => none

/-- What an item lets the loop yield, by what its frames do. -/
def loopKind (kind : φ → Kind) : Except String String → Kind
  | .error _ => .fails
  | .ok text =>
    match read text with
    | .skipped => .quiet
    | .finished => .ends false
    | .parsed (.error _) => .complains
    | .parsed (.ok frame) => kind frame

/-- The items carry the frames, among texts that are passed over. -/
inductive Transmits : List (Except String String) → List φ → Prop where
  | nil : Transmits [] []
  | skipped : read text = .skipped → Transmits items frames → Transmits (.ok text :: items) frames
  | frame : read text = .parsed (.ok frame) → Transmits items frames →
    Transmits (.ok text :: items) (frame :: frames)

/-- The item has a frame with the upstream's finish marker. -/
def loopMarks (marks : φ → Bool) (i : Except String String) : Bool := (heard read i).any marks

end

/-- What an item of an upstream lets an adapter yield. -/
abbrev Fits {σ : Type} (next : Step σ ChatChunk) (kind : Kind) : Prop :=
  HasKind ChatChunk.IsDelta ChatChunk.IsError next kind

theorem Memory.Cut.fail (m : Memory) : m.fail.Cut := .inr rfl

theorem Memory.Cut.getD_ne {m : Memory} (h : m.Cut) :
    m.lastFinish.getD .other ≠ .stop ∧ m.lastFinish.getD .other ≠ .toolCalls := by
  rcases h with h | h <;> rw [h] <;> exact ⟨nofun, nofun⟩

section
variable {σ φ : Type} {fail : σ → σ} {read : String → Reading φ}
  {frameStep : σ → φ → Step σ ChatChunk} {kind : φ → Kind} {marks : φ → Bool} {P : σ → Prop} {m : σ}

theorem loopStep_fits (h : ∀ frame, Fits (frameStep m frame) (kind frame))
    (i : Except String String) : Fits (loopStep fail read frameStep m i) (loopKind read kind i) := by
  cases i with
  | error e => exact ⟨⟨.error e, trivial, rfl⟩, rfl⟩
  | ok text =>
    dsimp only [loopStep, loopKind]
    cases read text with
    | skipped => exact ⟨rfl, rfl⟩
    | finished =>
      exact ⟨fun _ => (nomatch ·), iff_of_false (fun hne => hne rfl) Bool.false_ne_true, rfl⟩
    | parsed frame =>
      cases frame with
      | error e => exact ⟨⟨.error _, trivial, rfl⟩, rfl⟩
      | ok frame => exact h frame

/-- What a text leaves, if a frame does. -/
theorem loopStep_ok (hm : P m) {text : String}
    (h : ∀ frame, heard read (.ok text) = some frame → P (frameStep m frame).state) :
    P (loopStep fail read frameStep m (.ok text)).state := by
  dsimp only [loopStep]
  cases hread : read text with
  | skipped | finished => exact hm
  | parsed frame =>
    cases frame with
    | error e => exact hm
    | ok frame => exact h frame (by rw [heard, hread])

theorem loopStep_state (hm : P m) (hfail : P (fail m)) {i : Except String String}
    (h : ∀ frame, heard read i = some frame → P (frameStep m frame).state) :
    P (loopStep fail read frameStep m i).state := by
  cases i with
  | error e => exact hfail
  | ok text => exact loopStep_ok hm h

theorem loopStep_goesOn (hread : ∀ text, read text ≠ .finished) {i : Except String String}
    (h : ∀ frame, heard read i = some frame → (frameStep m frame).goesOn = true) :
    (loopStep fail read frameStep m i).goesOn = !isError i := by
  cases i with
  | error e => rfl
  | ok text =>
    dsimp only [loopStep]
    cases hfound : read text with
    | skipped => rfl
    | finished => exact absurd hfound (hread text)
    | parsed frame =>
      cases frame with
      | error e => rfl
      | ok frame => exact h frame (by rw [heard, hfound])

/-- The loop comes to the frames that its items carry. -/
theorem Transmits.run {items : List (Except String String)} {frames : List φ}
    (h : Transmits read items frames) (m : σ) :
    emit (loopStep fail read frameStep) m items = emit frameStep m frames ∧
      final (loopStep fail read frameStep) m items = final frameStep m frames := by
  induction h generalizing m with
  | nil => exact ⟨rfl, rfl⟩
  | @skipped text items frames hread _ ih =>
    have hstep : loopStep fail read frameStep m (.ok text) = { state := m } := by
      simp only [loopStep, hread]
    rw [emit, final, hstep]
    exact ih m
  | @frame text frame items frames hread _ ih =>
    have hstep : loopStep fail read frameStep m (.ok text) = frameStep m frame := by
      simp only [loopStep, hread]
    obtain ⟨hemit, hfinal⟩ := ih (frameStep m frame).state
    rw [emit, final, hstep, emit, final, hemit, hfinal]
    exact ⟨rfl, rfl⟩

theorem unmarked_of_heard {i : Except String String} {frame : φ}
    (hi : loopMarks read marks i = false) (h : heard read i = some frame) :
    marks frame = false := by
  rwa [loopMarks, h] at hi

end

theorem loopStep_cut {φ : Type} {read : String → Reading φ}
    {frameStep : Memory → φ → Step Memory ChatChunk} {marks : φ → Bool}
    (hstep : ∀ m frame, m.Cut → marks frame = false → (frameStep m frame).state.Cut) {m : Memory}
    {i : Except String String} (hm : m.Cut) (hi : loopMarks read marks i = false) :
    (loopStep Memory.fail read frameStep m i).state.Cut :=
  loopStep_state hm (.fail m) fun frame hframe => hstep m frame hm (unmarked_of_heard hi hframe)

variable {A : StreamAdapter} {items : List A.Item}

theorem deltaChunks_delta (text : Option String) (toolCalls : List ToolCallDelta) :
    ∀ c ∈ deltaChunks text toolCalls, c.IsDelta := by
  intro c hc
  unfold deltaChunks at hc
  split at hc
  · rw [List.mem_singleton.1 hc]
    trivial
  · cases hc

theorem deltaChunks_ne_nil_iff (text : Option String) (toolCalls : List ToolCallDelta) :
    deltaChunks text toolCalls ≠ [] ↔ (text.isSome || !toolCalls.isEmpty) = true := by
  unfold deltaChunks
  split
  · next h => exact iff_of_true (nomatch ·) h
  · next h => exact iff_of_false (fun hne => hne rfl) h

theorem flatMap_ne_nil_iff {α β : Type} {f : α → List β} {p : α → Bool}
    (h : ∀ a, f a ≠ [] ↔ p a = true) (l : List α) : l.flatMap f ≠ [] ↔ l.any p = true := by
  induction l with
  | nil => exact iff_of_false (fun hne => hne rfl) Bool.false_ne_true
  | cons a l ih =>
    rw [List.flatMap_cons, List.any_cons, Bool.or_eq_true, ← h a, ← ih, Ne,
      List.append_eq_nil_iff, Classical.not_and_iff_not_or_not]

theorem conforms_iff :
    Conforms (A.chunks items) ↔
      InOrder ChatChunk.IsDelta ChatChunk.IsError (emit A.step A.start items) := by
  rw [inOrder_iff]
  constructor
  · rintro ⟨deltas, errors, finishReason, usage, heq, hdeltas, herrors⟩
    obtain ⟨heq, -⟩ := List.append_inj' heq rfl
    refine ⟨deltas, errors, heq, hdeltas, herrors.imp_right fun ⟨message, herror⟩ => ?_⟩
    exact ⟨.error message, trivial, herror⟩
  · rintro ⟨deltas, errors, heq, hdeltas, herrors⟩
    refine ⟨deltas, errors, _, _, congrArg (· ++ _) heq, hdeltas, herrors.imp_right ?_⟩
    rintro ⟨c, hc, herror⟩
    cases c with
    | error message => exact ⟨message, herror⟩
    | delta | «end» => exact hc.elim

/-- In the memories that an adapter comes to, the items have their kinds. -/
structure StreamAdapter.Follows (A : StreamAdapter) (kind : A.Item → Kind) (I : A.Memory → Prop) :
    Prop where
  start : I A.start
  fits : ∀ m i, I m → Fits (A.step m i) (kind i)
  kept : ∀ m i, I m → (A.step m i).goesOn = true → I (A.step m i).state

theorem StreamAdapter.Follows.of_fits {kind : A.Item → Kind}
    (h : ∀ m i, Fits (A.step m i) (kind i)) : A.Follows kind fun _ => True :=
  ⟨trivial, fun m i _ => h m i, fun _ _ _ _ => trivial⟩

/-- An adapter keeps the contract exactly if nothing comes after a frame that it complains of. -/
theorem conforms_iff_orderly {kind : A.Item → Kind} {I : A.Memory → Prop} (h : A.Follows kind I) :
    Conforms (A.chunks items) ↔ Orderly (items.map kind) :=
  conforms_iff.trans (inOrder_emit_iff ChatChunk.IsDelta.not_isError h.fits h.kept h.start)

end Providers

end Tako
