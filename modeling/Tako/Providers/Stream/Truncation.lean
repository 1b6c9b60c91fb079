import Tako.Orchestrator.Conductor.Failing
import Tako.Providers.Stream.Contract

/-!
# Streams that are cut off

Where the upstream's connection ends before its finish marker has come, most adapters report a
finish reason that a conductor's worker does not take for a success. Ollama's reports `Stop`, and
Vertex's reports `ToolCalls` if a function call has come.
-/

namespace Tako.Providers

open Orchestrator Transducer

namespace Provider

/-- The item carries the upstream's finish marker. -/
def marks : (p : Provider) → p.intoChatStream.Item → Bool
  | openAi parse | mistral parse => loopMarks (OpenAi.reading parse) OpenAi.StreamFrame.marks
  | anthropic parse => loopMarks (Anthropic.reading parse) Anthropic.AnEvent.marks
  | vertex E => loopMarks (Vertex.reading E) Vertex.VxResponse.marks
  | bedrock => Bedrock.marks
  | ollama E => loopMarks (Ollama.reading E) Ollama.OlResponse.done
  | httpGeneric E (.openAiSse P) => loopMarks (HttpGeneric.sseReading E) (HttpGeneric.marks E P)
  | httpGeneric E (.ndJson P) => loopMarks (HttpGeneric.lineReading E) (HttpGeneric.marks E P)

/-- From what has come before the cut it shows that something is missing. Vertex's counter of calls
wraps around. -/
def CutShows : (p : Provider) → List p.intoChatStream.Item → Prop
  | vertex E, (items : List (Except String String)) =>
    items.any isError = true ∨ (items.flatMap (Vertex.functionCalls E)).length % UInt32.size = 0
  | ollama _, (items : List (Except String String)) => items.any isError = true
  | _, _ => True

variable (p : Provider) (items : List p.intoChatStream.Item)

/-- The end of the stream does not count as a success. -/
def EndFails : Prop :=
  p.intoChatStream.reason items ≠ .stop ∧ p.intoChatStream.reason items ≠ .toolCalls

/-- A worker of a conductor that is to receive the stream comes to nothing but an error, in whatever
order things happen. -/
def WorkerFails : Prop :=
  ∀ (W : Type) (F : Fanout W) (f : Fanout.State W) (i : Nat) (moves : List Fanout.Move)
    (task : Task) (outcome : Except String String),
    f.tasks[i]? = some (.receiving ((p.intoChatStream.chunks items).map .ok) "") →
    (F.play f moves).tasks[i]? = some task → task.outcome? = some outcome →
    ∃ e, outcome = .error e

variable {p items}

/-! ## The end of the stream -/

theorem endFails_of_cut {A : StreamAdapter} (memory : A.Memory → Memory) {marks : A.Item → Bool}
    (hreason : ∀ m, A.finishReason m = (memory m).lastFinish.getD .other)
    (hstep : ∀ m i, (memory m).Cut → marks i = false → (memory (A.step m i).state).Cut)
    (hstart : (memory A.start).Cut) {items : List A.Item} (hcut : ∀ i ∈ items, marks i = false) :
    A.reason items ≠ .stop ∧ A.reason items ≠ .toolCalls := by
  have hfinal : (memory (final A.step A.start items)).Cut :=
    final_invariant (I := fun m => (memory m).Cut) (fun m i hi hm => hstep m i hm (hcut i hi))
      hstart
  rw [StreamAdapter.reason, hreason]
  exact hfinal.getD_ne

/-- What the end of a stream reports of a cut. -/
theorem endFails_iff (p : Provider) {items : List p.intoChatStream.Item}
    (hcut : ∀ i ∈ items, p.marks i = false) : p.EndFails items ↔ p.CutShows items := by
  cases p with
  | openAi | mistral =>
    refine iff_of_true (endFails_of_cut id (fun _ => rfl) ?_ (.inl rfl) hcut) trivial
    exact fun _ _ => loopStep_cut fun _ _ => OpenAi.frameStep_cut
  | anthropic =>
    refine iff_of_true (endFails_of_cut id (fun _ => rfl) ?_ (.inl rfl) hcut) trivial
    exact fun _ _ => loopStep_cut fun _ _ => Anthropic.frameStep_cut
  | bedrock =>
    refine iff_of_true (endFails_of_cut Bedrock.Memory.toMemory (fun _ => rfl) ?_ (.inl rfl)
      hcut) trivial
    exact fun _ _ => Bedrock.streamStep_cut
  | httpGeneric E config =>
    cases config with
    | openAiSse P =>
      refine iff_of_true (endFails_of_cut id (fun _ => rfl) ?_ (.inl rfl) hcut) trivial
      exact fun _ _ => loopStep_cut fun _ _ => HttpGeneric.frameStep_cut
    | ndJson P =>
      refine iff_of_true (endFails_of_cut id (fun _ => rfl) ?_ (.inl rfl) hcut) trivial
      refine fun _ _ => loopStep_cut fun _ _ hm => ?_
      exact HttpGeneric.frameStep_cut hm
  | vertex E =>
    unfold EndFails CutShows intoChatStream
    rw [Vertex.reason_of_cut hcut]
    dsimp only
    split
    · next herror => exact iff_of_true ⟨nofun, nofun⟩ (.inl herror)
    · next herror =>
      split
      · next hzero => exact iff_of_true ⟨nofun, nofun⟩ (.inr hzero)
      · next hcalls => exact iff_of_false (fun h => h.2 rfl) fun h => h.elim herror hcalls
  | ollama E =>
    unfold EndFails CutShows intoChatStream
    rw [Ollama.reason_of_cut hcut]
    dsimp only
    split
    · next herror => exact iff_of_true ⟨nofun, nofun⟩ herror
    · next herror => exact iff_of_false (fun h => h.1 rfl) herror

/-! ## The worker that receives it -/

theorem endsBadly_append {chunks : List ChatChunk} (h : ∀ c ∈ chunks, c.IsDelta ∨ c.IsError)
    {rest : List (Result ChatChunk)} (hrest : EndsBadly rest) :
    EndsBadly (chunks.map .ok ++ rest) := by
  induction chunks with
  | nil => exact hrest
  | cons c chunks ih =>
    cases c with
    | delta => exact ih fun c hc => h c (List.mem_cons_of_mem _ hc)
    | error => trivial
    | «end» => exact (h _ List.mem_cons_self).elim False.elim False.elim

theorem workerFails_of_endFails (h : p.EndFails items) : p.WorkerFails items := by
  intro W F f i moves task outcome hi hi' houtcome
  obtain ⟨I, hfollows⟩ := p.follows
  have hbad : EndsBadly ((p.intoChatStream.chunks items).map .ok) := by
    rw [StreamAdapter.chunks, List.map_append]
    refine endsBadly_append (good_or_bad hfollows.fits hfollows.kept hfollows.start) h
  exact (Fanout.failsAt_play hi hbad moves task hi').isError houtcome

/-- A cut is reported, and a worker that receives the stream fails, exactly if the cut shows. -/
theorem truncated_iff (p : Provider) (items : List p.intoChatStream.Item)
    (hcut : ∀ i ∈ items, p.marks i = false) :
    p.EndFails items ∧ p.WorkerFails items ↔ p.CutShows items := by
  rw [← endFails_iff p hcut]
  exact ⟨And.left, fun h => ⟨h, workerFails_of_endFails h⟩⟩

/-- The OpenAI stream cut off after a text. -/
theorem truncated_iff_openAi :
    let p := Provider.openAi samplesParse
    let items := [.ok "\x7b\"choices\":[\x7b\"delta\":\x7b\"content\":\"Hi\"\x7d\x7d]\x7d"]
    p.EndFails items ∧ p.WorkerFails items := by
  refine (truncated_iff (openAi samplesParse) _ fun i hi => ?_).2 trivial
  rw [List.mem_singleton.1 hi]
  decide

/-- What `serde_json` makes of the line below. -/
def samplesLine : Ollama.Env where
  parse _ := .ok { message := { content := "The capital of France is" } }
  text _ := "null"

/-- An answer of Ollama that is cut off after its first words counts as complete. -/
theorem cut_taken_for_stop :
    let p := Provider.ollama samplesLine
    let items :=
      [.ok "\x7b\"message\":\x7b\"content\":\"The capital of France is\"\x7d,\"done\":false\x7d"]
    (∀ i ∈ items, p.marks i = false) ∧ ¬p.EndFails items := by
  refine ⟨fun i hi => ?_, fun h => h.1 ?_⟩
  · rw [List.mem_singleton.1 hi]
    decide +kernel
  · decide +kernel

end Provider

end Tako.Providers
