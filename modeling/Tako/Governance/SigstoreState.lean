import Tako.Governance.Sigstore.Freshness
import Tako.Theory.Provenance

/-!
# The persisted freshness state

`JsonStateStore` (`tako-governance/src/sigstore_state.rs`) and the tasks of one process that share
a store and a verifier: `verify_bundle`, `persist` (read the mark, then save it) and `seed` (load,
then set the anchor). A `save` replaces the file and a `seed` stores into the anchor whatever they
held, so a task that was overtaken writes an older mark. `Orderly` names the runs in which a write
drops no mark that has gone into what it replaces.
-/

namespace Tako.Sigstore

open Except Interleaving Provenance

/-! ## The store -/

/-- The state file, as `load` finds it. A file without a `version` field parses as version 1. -/
inductive FileState where
  | missing
  | unreadable (e : String)
  | malformed (e : String)
  | parsed (version rekorMinTreeSize : Nat)
  deriving DecidableEq, Repr

/-- The mark in the file. -/
def FileState.value : FileState → Nat
  | .parsed _ n => n
  | _ => 0

def stateFileVersion : Nat := 1

/-- How far `save` gets before the file system fails it. -/
inductive SaveIo where
  | serialise (e : String)
  | createParent (parent e : String)
  | openTmp (parent e : String)
  | writeTmp (tmp e : String)
  | fsyncTmp (tmp e : String)
  | persistTmp (e : String)
  | chmod (e : String)
  | ok

/-- The file is replaced by the rename, also when the mode cannot be set then. -/
def SaveIo.replaces : SaveIo → Bool
  | .chmod _ | .ok => true
  | _ => false

structure JsonStateStore where
  path : String

namespace JsonStateStore

variable (store : JsonStateStore)

def load : FileState → Result Nat
  | .missing => .ok 0
  | .unreadable e => .error (invalid s!"sigstore_state: read {store.path}" e)
  | .malformed e => .error (invalid s!"sigstore_state: parse {store.path}" e)
  | .parsed version n => do
    rejectIf (version ≠ stateFileVersion) (.invalid
      (s!"sigstore_state: unsupported state file version {version} " ++
        s!"(this build expects {stateFileVersion}); rebuild from a fresh boot"))
    .ok n

/-- The result of `save` and the file after it. -/
def save (n : Nat) (io : SaveIo) (file : FileState) : Result Unit × FileState :=
  match io with
  | .serialise e => (.error (invalid "sigstore_state: serialise" e), file)
  | .createParent parent e =>
    (.error (invalid s!"sigstore_state: create parent {parent}" e), file)
  | .openTmp parent e => (.error (invalid s!"sigstore_state: open tmp in {parent}" e), file)
  | .writeTmp tmp e => (.error (invalid s!"sigstore_state: write tmp {tmp}" e), file)
  | .fsyncTmp tmp e => (.error (invalid s!"sigstore_state: fsync tmp {tmp}" e), file)
  | .persistTmp e =>
    (.error (invalid s!"sigstore_state: persist tmp -> {store.path}" e), file)
  | .chmod e =>
    (.error (invalid s!"sigstore_state: chmod 0600 {store.path}" e), .parsed stateFileVersion n)
  | .ok => (.ok (), .parsed stateFileVersion n)

theorem save_replaced {io : SaveIo} (h : io.replaces = true) (n : Nat) (file : FileState) :
    (store.save n io file).2 = .parsed stateFileVersion n := by
  cases io with
  | chmod | ok => rfl
  | serialise | createParent | openTmp | writeTmp | fsyncTmp | persistTmp => cases h

theorem save_kept {io : SaveIo} (h : io.replaces = false) (n : Nat) (file : FileState) :
    (store.save n io file).2 = file := by
  cases io with
  | chmod | ok => cases h
  | serialise | createParent | openTmp | writeTmp | fsyncTmp | persistTmp => rfl

/-- A loaded value is the mark in the file. -/
theorem load_eq_ok (h : store.load file = .ok n) : n = file.value := by
  cases file with
  | missing => exact (Except.ok.inj h).symm
  | unreadable | malformed => cases h
  | parsed version m =>
    simp only [load, bind_eq_ok, Except.ok.injEq] at h
    obtain ⟨_, -, rfl⟩ := h
    rfl

/-- A saved mark is loaded again. -/
theorem load_save (n : Nat) (file : FileState) : store.load (store.save n .ok file).2 = .ok n := by
  simp [load, save, bind_eq_ok, stateFileVersion]

end JsonStateStore

/-! ## Tasks -/

variable {Key Re : Type} {D : Deps Key Re}

/-- The verifier's anchor and the state file, each with the marks that have gone into it: those of
the verifications that have raised the anchor, and those of the start. `marks` numbers them. -/
structure Shared where
  anchor : Nat
  anchorMarks : List (Mark Nat)
  file : FileState
  fileMarks : List (Mark Nat)
  marks : Nat

namespace Shared

def anchorCopy (s : Shared) : Copy Nat := ⟨s.anchor, s.anchorMarks⟩
def fileCopy (s : Shared) : Copy Nat := ⟨s.file.value, s.fileMarks⟩

/-- The anchor and the file at the start are marks 0 and 1. -/
def start (anchor : Nat) (file : FileState) : Shared where
  anchor
  anchorMarks := (Copy.start ⟨0, anchor⟩ ⟨1, file.value⟩).marks
  file
  fileMarks := (Copy.start ⟨1, file.value⟩ ⟨0, anchor⟩).marks
  marks := 2

/-- A verification leaves the anchor at `n`. -/
def raise (s : Shared) (n : Nat) : Shared :=
  if s.anchor < n then
    { s with anchor := n, anchorMarks := ⟨s.marks, n⟩ :: s.anchorMarks, marks := s.marks + 1 }
  else { s with anchor := n }

def setAnchor (s : Shared) (t : Copy Nat) : Shared :=
  { s with anchor := t.value, anchorMarks := t.marks }

/-- A save replaces the file by a copy, or leaves it. -/
def setFile (s : Shared) (t : Copy Nat) (io : SaveIo) (file : FileState) : Shared :=
  { s with file, fileMarks := if io.replaces then t.marks else s.fileMarks }

end Shared

/-- Where a task stands. A `persist` between its read and its save, and a `seed` between its load
and its store, hold a copy of the mark. -/
inductive TaskState where
  | verify (call : Call) (s : CallState)
  | persist
  | persistSave (t : Copy Nat)
  | seed
  | seedStore (t : Copy Nat)
  | done (result : Result Unit)

/-- The writes that replace a mark whatever it is. -/
inductive Action where
  | save
  | store
  | other
  deriving DecidableEq

/-- The steps of a task on a verifier and a store. -/
inductive TaskStep (v : KeylessVerifier D) (store : JsonStateStore) :
    Action → Shared → TaskState → Shared → TaskState → Prop
  | verify : CallStep v call s.anchor cs anchor' cs' →
    TaskStep v store .other s (.verify call cs) (s.raise anchor') (.verify call cs')
  | read : TaskStep v store .other s .persist s (.persistSave s.anchorCopy)
  | save (io : SaveIo) :
    TaskStep v store (if io.replaces then .save else .other) s (.persistSave t)
      (s.setFile t io (store.save t.value io s.file).2) (.done (store.save t.value io s.file).1)
  | load : store.load s.file = .ok n →
    TaskStep v store .other s .seed s (.seedStore ⟨n, s.fileMarks⟩)
  | loadFails : store.load s.file = .error e →
    TaskStep v store .other s .seed s (.done (.error e))
  | store : TaskStep v store .store s (.seedStore t) (s.setAnchor t) (.done (.ok ()))

/-- Where a task starts. -/
def TaskState.Initial : TaskState → Prop
  | .verify _ s => s = .start
  | .persist | .seed => True
  | _ => False

/-- What is written has all marks that have gone into what it replaces. -/
def Orderly (s : Shared) : Action → TaskState → Prop
  | .save, .persistSave t => s.fileMarks ⊆ t.marks
  | .store, .seedStore t => s.anchorMarks ⊆ t.marks
  | _, _ => True

/-- The steps that the condition allows. -/
def OrderlyStep (v : KeylessVerifier D) (store : JsonStateStore) (s : Shared) (t : TaskState)
    (s' : Shared) (t' : TaskState) : Prop :=
  ∃ a, TaskStep v store a s t s' t' ∧ Orderly s a t

/-! ## Orderly runs -/

/-- The anchor and the file are what their marks come to. -/
structure Shared.Sound (s : Shared) : Prop where
  anchor : s.anchorCopy.Lub
  file : s.fileCopy.Lub

/-- So is the copy that a task holds. -/
def TaskState.Sound : TaskState → Prop
  | .persistSave t | .seedStore t => t.Lub
  | _ => True

/-- Neither the file's mark nor the anchor is lower than before. -/
structure Grows (s s' : Shared) : Prop where
  file : s.file.value ≤ s'.file.value
  anchor : s.anchor ≤ s'.anchor

theorem Grows.refl (s : Shared) : Grows s s := ⟨Nat.le_refl _, Nat.le_refl _⟩

theorem Grows.trans (h : Grows s s') (h' : Grows s' s'') : Grows s s'' :=
  ⟨h.file.trans h'.file, h.anchor.trans h'.anchor⟩

theorem Shared.sound_start (anchor : Nat) (file : FileState) : (start anchor file).Sound :=
  ⟨Copy.lub_start ⟨0, anchor⟩ ⟨1, file.value⟩, Copy.lub_start ⟨1, file.value⟩ ⟨0, anchor⟩⟩

theorem Shared.Sound.raise (h : s.Sound) (hle : s.anchor ≤ n) :
    (s.raise n).Sound ∧ Grows s (s.raise n) := by
  unfold Shared.raise
  split
  case isTrue hlt =>
    exact ⟨⟨h.anchor.raise (m := ⟨s.marks, n⟩) hle, h.file⟩, Nat.le_refl _, hle⟩
  case isFalse hlt =>
    have heq : n = s.anchor := by omega
    subst heq
    exact ⟨h, .refl s⟩

/-- An orderly step keeps every value what its marks come to, and lowers none. -/
theorem OrderlyStep.grows {v : KeylessVerifier D} (h : OrderlyStep v store s t s' t')
    (hs : s.Sound) (ht : t.Sound) : Grows s s' ∧ s'.Sound ∧ t'.Sound := by
  obtain ⟨a, h, ho⟩ := h
  cases h with
  | verify hc =>
    obtain ⟨hsound, hgrows⟩ := hs.raise hc.anchor_le
    exact ⟨hgrows, hsound, trivial⟩
  | read => exact ⟨.refl s, hs, hs.anchor⟩
  | @save _ t io =>
    cases hio : io.replaces with
    | true =>
      simp only [hio, if_true] at ho
      have hle : s.fileCopy.value ≤ t.value := hs.file.le_of_subset ht ho
      simp only [Shared.setFile, store.save_replaced hio, hio, if_true]
      exact ⟨⟨hle, Nat.le_refl _⟩, ⟨hs.anchor, ht⟩, trivial⟩
    | false =>
      simp only [Shared.setFile, store.save_kept hio, hio, Bool.false_eq_true, if_false]
      exact ⟨.refl s, hs, trivial⟩
  | load hload =>
    obtain rfl := store.load_eq_ok hload
    exact ⟨.refl s, hs, hs.file⟩
  | loadFails => exact ⟨.refl s, hs, trivial⟩
  | store => exact ⟨⟨Nat.le_refl _, hs.anchor.le_of_subset ht ho⟩, ⟨ht, hs.file⟩, trivial⟩

variable {ι : Type} [DecidableEq ι] {v : KeylessVerifier D} {store : JsonStateStore}

/-- Over an orderly run everything grows, and every value stays what its marks come to. -/
theorem orderlyRun_grows {c c' : Config ι Shared TaskState}
    (h : Run (fun _ => OrderlyStep v store) c c') (hs : c.shared.Sound)
    (ht : ∀ i, (c.locals i).Sound) :
    Grows c.shared c'.shared ∧ c'.shared.Sound ∧ ∀ i, (c'.locals i).Sound := by
  refine h.invariant (I := fun d => Grows c.shared d.shared ∧ d.shared.Sound ∧
    ∀ i, (d.locals i).Sound) ?_ ⟨.refl _, hs, ht⟩
  rintro d i s t ⟨hg, hd, hlocals⟩ hstep
  obtain ⟨hg', hsound, hi⟩ := hstep.grows hd (hlocals i)
  exact ⟨hg.trans hg', hsound, forall_update (P := fun _ => TaskState.Sound) hlocals hi⟩

theorem TaskState.Initial.sound {t : TaskState} (h : t.Initial) : t.Sound := by
  cases t with
  | persistSave t => exact h.elim
  | seedStore t => exact h.elim
  | verify | persist | seed | done => trivial

/-- In a run in which every save and every store of a seed has all marks that have gone into what it
replaces, the mark in the file never decreases and the anchor is never lowered. -/
theorem orderlyRun_never_regresses (v : KeylessVerifier D) (store : JsonStateStore) (anchor : Nat)
    (file : FileState) (tasks : ι → TaskState) (hinit : ∀ i, (tasks i).Initial)
    (c c' : Config ι Shared TaskState)
    (hrun : Run (fun _ => OrderlyStep v store) ⟨.start anchor file, tasks⟩ c)
    (hrun' : Run (fun _ => OrderlyStep v store) c c') :
    c.shared.file.value ≤ c'.shared.file.value ∧ c.shared.anchor ≤ c'.shared.anchor := by
  obtain ⟨-, hsound, hlocals⟩ :=
    orderlyRun_grows hrun (Shared.sound_start anchor file) fun i => (hinit i).sound
  obtain ⟨hgrows, -⟩ := orderlyRun_grows hrun' hsound hlocals
  exact ⟨hgrows.file, hgrows.anchor⟩

/-- A seed, a verification and a persist. -/
def Sample.startup : Fin 3 → TaskState
  | 0 => .seed
  | 1 => .verify call .start
  | 2 => .persist

open Sample in
/-- The tasks one after the other, from a file with the mark 2. -/
theorem orderlyRun_never_regresses_startup : ∃ c : Config (Fin 3) Shared TaskState,
    c.shared.file = .parsed 1 3 ∧
    ∀ c', Run (fun _ => OrderlyStep verifier ⟨"state.json"⟩) c c' → 3 ≤ c'.shared.file.value := by
  have hrun : ∃ c : Config (Fin 3) Shared TaskState,
      Run (fun _ => OrderlyStep verifier ⟨"state.json"⟩) ⟨.start 0 (.parsed 1 2), startup⟩ c ∧
      c.shared.file = .parsed 1 3 :=
    ⟨_, .tail (.tail (.tail (.tail (.tail (.tail (.tail .refl
      (.task 0 ⟨.other, .load rfl, trivial⟩))
        (.task 0 ⟨.store, .store, (by decide : (_ : List (Mark Nat)) ⊆ _)⟩))
      (.task 1 ⟨.other, .verify (.check call_checks), trivial⟩))
      (.task 1 ⟨.other, .verify .load, trivial⟩))
      (.task 1 ⟨.other, .verify (.advance rfl), trivial⟩)) (.task 2 ⟨.other, .read, trivial⟩))
      (.task 2 ⟨.save, .save .ok, (by decide : (_ : List (Mark Nat)) ⊆ _)⟩), rfl⟩
  obtain ⟨c, hrun, hfile⟩ := hrun
  refine ⟨c, hfile, fun c' h => ?_⟩
  have hinit : ∀ i, (startup i).Initial := by
    intro i
    match i with
    | 0 => trivial
    | 1 => rfl
    | 2 => trivial
  have hle := (orderlyRun_never_regresses verifier _ _ _ _ hinit c c' hrun h).1
  rwa [hfile] at hle

/-- Two persists around a verification. -/
def Sample.persists : Fin 3 → TaskState
  | 0 => .persist
  | 1 => .verify call .start
  | 2 => .persist

open Sample in
/-- The first persist reads the mark 1, a verification advances it to 3, the second persist saves
3, and the first one saves 1. -/
theorem persist_overtaken :
    ¬∀ (v : KeylessVerifier logDeps) (store : JsonStateStore) (anchor : Nat) (file : FileState)
      (tasks : Fin 3 → TaskState) (c c' : Config (Fin 3) Shared TaskState),
      (∀ i, (tasks i).Initial) →
      Run (fun _ s t s' t' => ∃ a, TaskStep v store a s t s' t') ⟨.start anchor file, tasks⟩ c →
      Run (fun _ s t s' t' => ∃ a, TaskStep v store a s t s' t') c c' →
      c.shared.file.value ≤ c'.shared.file.value := by
  intro h
  have hrun : ∃ c c' : Config (Fin 3) Shared TaskState,
      Run (fun _ s t s' t' => ∃ a, TaskStep verifier ⟨"state.json"⟩ a s t s' t')
        ⟨.start 1 .missing, persists⟩ c ∧
      Run (fun _ s t s' t' => ∃ a, TaskStep verifier ⟨"state.json"⟩ a s t s' t') c c' ∧
      c.shared.file.value = 3 ∧ c'.shared.file.value = 1 :=
    ⟨_, _, .tail (.tail (.tail (.tail (.tail (.tail .refl
      (.task 0 ⟨_, .read⟩)) (.task 1 ⟨_, .verify (.check call_checks)⟩))
      (.task 1 ⟨_, .verify .load⟩)) (.task 1 ⟨_, .verify (.advance rfl)⟩)) (.task 2 ⟨_, .read⟩))
      (.task 2 ⟨_, .save .ok⟩), .tail .refl (.task 0 ⟨_, .save .ok⟩), rfl, rfl⟩
  obtain ⟨c, c', hc, hc', hfile, hfile'⟩ := hrun
  have hinit : ∀ i, (persists i).Initial := by
    intro i
    match i with
    | 0 => trivial
    | 1 => rfl
    | 2 => trivial
  have hle := h verifier ⟨"state.json"⟩ _ _ _ c c' hinit hc hc'
  rw [hfile, hfile'] at hle
  exact absurd hle (by decide)

end Tako.Sigstore
