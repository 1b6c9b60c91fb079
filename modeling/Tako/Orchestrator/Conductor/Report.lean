import Tako.Orchestrator.Conductor.Basic
import Tako.Rust.Slice

/-!
# When the report to the coordinator can be written

`render_worker_results` shortens a task of more than 60 bytes at its 57th byte. The slice panics if
that byte stands inside a character, and nothing else in the report can fail
(`renderWorkerResults_reports_iff`).
-/

namespace Tako.Orchestrator

open Str (IsCharBoundary)

variable {codec : PlanCodec} {results : List WorkerResult}

/-- The line for a result whose task has been shortened to `task`. -/
def reportLine (codec : PlanCodec) (r : WorkerResult) (task : String) : String :=
  match r.outcome with
  | .ok text => s!"- {r.name} (task: {codec.debugStr task}): {text}\n"
  | .error err => s!"- {r.name} (task: {codec.debugStr task}): ERROR: {err}\n"

/-- `short` is the trimmed task, or a part from its start with an ellipsis. -/
def Shortened (task short : String) : Prop :=
  short = Str.trim task ∨ ∃ part rest, Str.trim task = part ++ rest ∧ short = part ++ "..."

/-- The report has a line for each result in order, with its task shortened. -/
def ReportsEach (codec : PlanCodec) (results : List WorkerResult) (report : Option String) : Prop :=
  ∃ tasks, List.Forall₂ (fun r task => short r.task = some task ∧ Shortened r.task task)
      results tasks ∧
    report = some (String.join ("Worker results:\n" :: results.zipWith (reportLine codec) tasks))

/-- The task can be shortened: it is short, or its 57th byte ends a character. -/
def Shortens (task : String) : Prop :=
  (Str.trim task).utf8ByteSize ≤ 60 ∨ IsCharBoundary (Str.trim task) 57

/-! ## One task -/

theorem shortened_of_short {task s : String} (h : short task = some s) : Shortened task s := by
  simp only [short] at h
  split at h
  case isTrue => exact .inl (Option.some.inj h).symm
  case isFalse =>
    obtain ⟨part, hpart, hs⟩ := Option.bind_eq_some_iff.1 h
    obtain ⟨rest, hsplit, -⟩ := Str.sliceTo_eq_some_iff.1 hpart
    exact .inr ⟨part, rest, hsplit, (Option.some.inj hs).symm⟩

theorem short_isSome_iff (task : String) : (∃ s, short task = some s) ↔ Shortens task := by
  simp only [short, Shortens]
  split
  case isTrue hle => exact iff_of_true ⟨_, rfl⟩ (.inl hle)
  case isFalse hgt =>
    rw [or_iff_right hgt, ← Str.sliceTo_ne_none_iff, Option.ne_none_iff_exists']
    constructor
    · rintro ⟨s, hs⟩
      obtain ⟨part, hpart, -⟩ := Option.bind_eq_some_iff.1 hs
      exact ⟨part, hpart⟩
    · rintro ⟨part, hpart⟩
      exact ⟨s!"{part}...", by rw [hpart]; rfl⟩

/-! ## All results -/

theorem renderWorkerResult_eq (codec : PlanCodec) (r : WorkerResult) :
    renderWorkerResult codec r = (short r.task).map (reportLine codec r) := by
  unfold renderWorkerResult reportLine
  cases short r.task with
  | none => rfl
  | some task => cases r.outcome <;> rfl

theorem mapM_renderWorkerResult_eq_some_iff {lines : List String} :
    results.mapM (renderWorkerResult codec) = some lines ↔
      ∃ tasks, List.Forall₂ (fun r task => short r.task = some task) results tasks ∧
        results.zipWith (reportLine codec) tasks = lines := by
  induction results generalizing lines with
  | nil =>
    constructor
    · intro h
      exact ⟨[], .nil, Option.some.inj h⟩
    · rintro ⟨tasks, htasks, rfl⟩
      cases htasks
      rfl
  | cons r results ih =>
    rw [List.mapM_cons, renderWorkerResult_eq]
    constructor
    · intro h
      obtain ⟨line, hline, h⟩ := Option.bind_eq_some_iff.1 h
      obtain ⟨rest, hrest, h⟩ := Option.bind_eq_some_iff.1 h
      obtain ⟨task, htask, rfl⟩ := Option.map_eq_some_iff.1 hline
      obtain ⟨tasks, htasks, rfl⟩ := ih.1 hrest
      exact ⟨task :: tasks, .cons htask htasks, Option.some.inj h⟩
    · rintro ⟨tasks, htasks, rfl⟩
      cases htasks with
      | cons htask htasks =>
        rw [htask, ih.2 ⟨_, htasks, rfl⟩]
        rfl

theorem forall₂_short_iff :
    (∃ tasks, List.Forall₂ (fun r task => short r.task = some task) results tasks) ↔
      ∀ r ∈ results, Shortens r.task := by
  induction results with
  | nil => exact iff_of_true ⟨[], .nil⟩ (by simp)
  | cons r results ih =>
    rw [List.forall_mem_cons, ← ih, ← short_isSome_iff]
    constructor
    · rintro ⟨tasks, htasks⟩
      cases htasks with
      | cons htask htasks => exact ⟨⟨_, htask⟩, ⟨_, htasks⟩⟩
    · rintro ⟨⟨task, htask⟩, ⟨tasks, htasks⟩⟩
      exact ⟨task :: tasks, .cons htask htasks⟩

/-- The report is written, with every task shortened, exactly if every task is short once trimmed
or has a character boundary at byte 57. -/
theorem renderWorkerResults_reports_iff (codec : PlanCodec) (results : List WorkerResult) :
    ReportsEach codec results (renderWorkerResults codec results) ↔
      ∀ r ∈ results, Shortens r.task := by
  rw [← forall₂_short_iff]
  constructor
  · rintro ⟨tasks, htasks, -⟩
    exact ⟨tasks, htasks.imp fun _ _ h => h.1⟩
  · rintro ⟨tasks, htasks⟩
    refine ⟨tasks, htasks.imp fun _ _ h => ⟨h, shortened_of_short h⟩, ?_⟩
    rw [renderWorkerResults, mapM_renderWorkerResult_eq_some_iff.2 ⟨tasks, htasks, rfl⟩]
    rfl

/-! ## A sample -/

/-- 56 letters, then one of two bytes, then three more. -/
def accentedTask : String := String.ofList (List.replicate 56 'a' ++ ['é', 'x', 'y', 'z'])

def plainCodec : PlanCodec where
  debugDuration _ := ""
  debugStr s := s
  joinError _ := ""
  planFromStr _ := .ok {}

theorem not_reports_accentedTask :
    ¬ReportsEach plainCodec [⟨"solver", accentedTask, .ok "done"⟩]
      (renderWorkerResults plainCodec [⟨"solver", accentedTask, .ok "done"⟩]) := by
  have hpanic : renderWorkerResults plainCodec [⟨"solver", accentedTask, .ok "done"⟩] = none := by
    decide +kernel
  rintro ⟨tasks, -, h⟩
  rw [hpanic] at h
  cases h

end Tako.Orchestrator
