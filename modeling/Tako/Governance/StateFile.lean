import Tako.Governance.SigstoreState
import Tako.Orchestrator.Basic
import Tako.Rust.Io
import Tako.Theory.FileSystem

/-!
# The state file on the disk

`JsonStateStore::save` and `load` (`tako-governance/src/sigstore_state.rs`) by their system calls:
a temporary file is written in pieces, synced and renamed, and a file is read in pieces. Each call
is a step of its own, and may fail. A process may be killed before any of them, and then leaves what
it has done so far.
-/

namespace Tako.Sigstore

open Async

/-! ## System calls -/

/-- Whether the next call fails, the random part of a name, and how many of some bytes a write
takes, or a read gives. -/
structure DiskIo (W : Type) where
  fault : W → Option String × W
  suffix : W → String × W
  write : Nat → W → Except String Nat × W
  read : Nat → W → Except String Nat × W

/-- The directory of the state file. A file belongs to the call that has made it, and `replaced` has
the calls that have replaced the state file, the last one first. -/
structure StateCell (ι W : Type) where
  world : W
  fs : FileSystem String
  owner : Nat → Option ι := fun _ => none
  replaced : List ι := []

/-- `NamedTempFile`. -/
structure TmpFile where
  name : String
  ino : Nat

namespace StateCell

variable {ι W α : Type}

/-- A call that may fail, with what it does otherwise. -/
def syscall (io : DiskIo W) (f : StateCell ι W → Except String α × StateCell ι W)
    (s : StateCell ι W) : Except String α × StateCell ι W :=
  let r := io.fault s.world
  match r.1 with
  | some e => (.error e, { s with world := r.2 })
  | none => f { s with world := r.2 }

def createDirAll (io : DiskIo W) : StateCell ι W → Except String Unit × StateCell ι W :=
  syscall io fun s => (.ok (), s)

/-- A new file of a call's. -/
def make (i : ι) (name : String) (s : StateCell ι W) : StateCell ι W :=
  { s with
    fs := s.fs.create name 0o600
    owner := Function.update s.owner s.fs.next (some i) }

@[simp] theorem make_owner (i : ι) (name : String) (s : StateCell ι W) :
    (s.make i name).owner = Function.update s.owner s.fs.next (some i) := rfl

/-- `NamedTempFile::new_in`. A file that is there already is not opened. -/
def newIn (io : DiskIo W) (i : ι) : StateCell ι W → Except String TmpFile × StateCell ι W :=
  syscall io fun s =>
    let r := io.suffix s.world
    let name := ".tmp" ++ r.1
    let s := { s with world := r.2 }
    match s.fs.dir name with
    | some _ => (.error "File exists (os error 17)", s)
    | none => (.ok ⟨name, s.fs.next⟩, s.make i name)

def write (io : DiskIo W) (tmp : TmpFile) (bytes : List UInt8) (s : StateCell ι W) :
    Except String Nat × StateCell ι W :=
  let r := io.write bytes.length s.world
  match r.1 with
  | .error e => (.error e, { s with world := r.2 })
  | .ok n => (.ok n, { s with world := r.2, fs := s.fs.append tmp.ino (bytes.take n) })

def syncAll (io : DiskIo W) (tmp : TmpFile) :
    StateCell ι W → Except String Unit × StateCell ι W :=
  syscall io fun s => (.ok (), { s with fs := s.fs.sync tmp.ino })

/-- `NamedTempFile::persist`. -/
def persist (io : DiskIo W) (i : ι) (tmp : TmpFile) (name : String) :
    StateCell ι W → Except String Unit × StateCell ι W :=
  syscall io fun s =>
    (.ok (), { s with fs := s.fs.rename tmp.name name, replaced := i :: s.replaced })

/-- The temporary file is dropped. -/
def remove (io : DiskIo W) (tmp : TmpFile) : StateCell ι W → Except String Unit × StateCell ι W :=
  syscall io fun s => (.ok (), { s with fs := s.fs.unlink tmp.name })

def setPermissions (io : DiskIo W) (name : String) :
    StateCell ι W → Except String Unit × StateCell ι W :=
  syscall io fun s =>
    match s.fs.dir name with
    | none => (.error "No such file or directory (os error 2)", s)
    | some ino => (.ok (), { s with fs := s.fs.chmod ino 0o600 })

/-- The file, if it is there, and its size. -/
def openFile (io : DiskIo W) (name : String) :
    StateCell ι W → Except String (Option (Nat × Nat)) × StateCell ι W :=
  syscall io fun s =>
    (.ok ((s.fs.dir name).map fun ino => (ino, (s.fs.inodes ino).bytes.length)), s)

/-- Some of the bytes from an offset on, and none at the end only. -/
def read (io : DiskIo W) (ino offset : Nat) (s : StateCell ι W) :
    Except String (List UInt8) × StateCell ι W :=
  let rest := (s.fs.inodes ino).bytes.drop offset
  let r := io.read rest.length s.world
  (r.1.map fun n => rest.take (max 1 n), { s with world := r.2 })

end StateCell

/-! ## The store -/

/-- What `serde_json::to_vec` makes of a `StateFile`. -/
def stateBody (n : UInt64) : List UInt8 :=
  Orchestrator.utf8 ("\x7b\"version\":1,\"rekor_min_tree_size\":" ++ n.toNat.repr ++ "\x7d")

/-- A store, with the parent of its path, the last component, and the paths of other files there.
`parse` is `serde_json::from_slice`. -/
structure StateDisk where
  store : JsonStateStore
  parent : String
  name : String
  display : String → String
  parse : List UInt8 → FileState

/-- `map_err`. -/
def mapErr {σ α : Type} (context : String) (x : Async σ (Except String α)) : Async σ (Result α) :=
  x >>= fun r => pure (r.mapError (invalid context))

namespace StateDisk

variable {ι W : Type} (disk : StateDisk) (io : DiskIo W)

/-- What `load` finds. -/
def found (contents : Option (List UInt8)) : FileState :=
  match contents with
  | none => .missing
  | some bytes => disk.parse bytes

def fill (i : ι) (tmp : TmpFile) (n : UInt64) : Async (StateCell ι W) (Result Unit) :=
  let body := stateBody n
  let path := disk.display tmp.name
  (mapErr s!"sigstore_state: write tmp {path}"
    (Io.writeAll (StateCell.write io tmp) body.length body)).andThen fun _ =>
  (mapErr s!"sigstore_state: fsync tmp {path}"
    (atomically (StateCell.syncAll io tmp))).andThen fun _ =>
  mapErr s!"sigstore_state: persist tmp -> {disk.store.path}"
    (atomically (StateCell.persist io i tmp disk.name))

/-- On an error the temporary file is removed, if that can be done. -/
def orRemove (tmp : TmpFile) (x : Async (StateCell ι W) (Result Unit)) :
    Async (StateCell ι W) (Result Unit) := do
  match ← x with
  | .ok () => pure (.ok ())
  | .error e =>
    let _ ← atomically (StateCell.remove io tmp)
    pure (.error e)

def save (i : ι) (n : UInt64) : Async (StateCell ι W) (Result Unit) :=
  (mapErr s!"sigstore_state: create parent {disk.parent}"
    (atomically (StateCell.createDirAll io))).andThen fun _ =>
  (mapErr s!"sigstore_state: open tmp in {disk.parent}"
    (atomically (StateCell.newIn io i))).andThen fun tmp =>
  (orRemove io tmp (disk.fill io i tmp n)).andThen fun _ =>
  mapErr s!"sigstore_state: chmod 0600 {disk.store.path}"
    (atomically (StateCell.setPermissions io disk.name))

def load : Async (StateCell ι W) (Result Nat) := do
  match ← atomically (StateCell.openFile io disk.name) with
  | .error e => pure (disk.store.load (.unreadable e))
  | .ok none => pure (disk.store.load .missing)
  | .ok (some (ino, size)) =>
    match ← Io.readToEnd (StateCell.read io ino) (size + 1) [] with
    | .error e => pure (disk.store.load (.unreadable e))
    | .ok bytes => pure (disk.store.load (disk.parse bytes))

end StateDisk

/-! ## Calls -/

inductive StateOp where
  | save (n : UInt64)
  | load

/-- The mark that the call saves. -/
def StateOp.mark : StateOp → Option UInt64
  | .save n => some n
  | .load => none

inductive StateReply where
  | saved (r : Result Unit)
  | loaded (r : Result Nat)

def StateOp.run {ι W : Type} (disk : StateDisk) (io : DiskIo W) (i : ι) :
    StateOp → Async (StateCell ι W) StateReply
  | .save n => do
    let r ← disk.save io i n
    pure (.saved r)
  | .load => do
    let r ← disk.load io
    pure (.loaded r)

/-! ## A save alone -/

/-- A disk on which nothing fails. -/
def DiskIo.faultless (suffix : String) : DiskIo Unit where
  fault w := (none, w)
  suffix w := (suffix, w)
  write n w := (.ok n, w)
  read n w := (.ok n, w)

theorem exec_mapErr {σ α : Type} (context : String) (x : Async σ (Except String α)) (s : σ) :
    (mapErr context x).exec s = (x.exec s).map fun r => (r.1.mapError (invalid context), r.2) := by
  rw [mapErr, exec_bind]
  cases x.exec s <;> rfl

theorem exec_mapErr_ok {σ α : Type} {g : σ → Except String α × σ} {a : α} {s t : σ}
    (h : g s = (.ok a, t)) (context : String) :
    (mapErr context (atomically g)).exec s = some (.ok a, t) := by
  rw [exec_mapErr, exec_atomically, h]
  rfl

theorem stateBody_ne_nil (n : UInt64) : stateBody n ≠ [] := by
  intro hnil
  have hempty := Orchestrator.utf8_injective (b := "") hnil
  have hlen := congrArg (fun t : String => t.toList.length) hempty
  simp at hlen

namespace StateDisk

variable {ι : Type} {disk : StateDisk} {suffix : String} {s t : StateCell ι Unit}

theorem exec_fill (i : ι) (tmp : TmpFile) (n : UInt64) :
    (disk.fill (.faultless suffix) i tmp n).exec s = some (.ok (),
      { s with
        fs := ((s.fs.append tmp.ino (stateBody n)).sync tmp.ino).rename tmp.name disk.name
        replaced := i :: s.replaced }) := by
  have hwrite : (mapErr s!"sigstore_state: write tmp {disk.display tmp.name}"
      (Io.writeAll (StateCell.write (.faultless suffix) tmp) (stateBody n).length
        (stateBody n))).exec s =
      some (.ok (), { s with fs := s.fs.append tmp.ino (stateBody n) }) := by
    rw [exec_mapErr, Io.exec_writeAll rfl (stateBody_ne_nil n)]
    simp [StateCell.write, DiskIo.faultless, Except.mapError]
  have hsync (t : StateCell ι Unit) : StateCell.syncAll (.faultless suffix) tmp t =
      (.ok (), { t with fs := t.fs.sync tmp.ino }) := rfl
  have hpersist (t : StateCell ι Unit) : StateCell.persist (.faultless suffix) i tmp disk.name t =
      (.ok (), { t with fs := t.fs.rename tmp.name disk.name, replaced := i :: t.replaced }) := rfl
  rw [fill, exec_andThen_ok hwrite, exec_andThen_ok (exec_mapErr_ok (hsync _) _),
    exec_mapErr_ok (hpersist _)]

theorem exec_orRemove {io : DiskIo Unit} {tmp : TmpFile}
    {x : Async (StateCell ι Unit) (Result Unit)} (h : x.exec s = some (.ok (), t)) :
    (orRemove io tmp x).exec s = some (.ok (), t) := by
  rw [orRemove, exec_bind, h, Option.bind_some, exec_pure]

/-- What is saved is in the file. -/
theorem exec_save (hname : ".tmp" ++ suffix ≠ disk.name) (hnew : s.fs.dir (".tmp" ++ suffix) = none)
    (i : ι) (n : UInt64) : ∃ t, (disk.save (.faultless suffix) i n).exec s = some (.ok (), t) ∧
      t.fs.contents (t.fs.dir disk.name) = some (stateBody n) := by
  let made := s.make i (".tmp" ++ suffix)
  let tmp : TmpFile := ⟨".tmp" ++ suffix, s.fs.next⟩
  let filled : StateCell ι Unit := { made with
    fs := ((made.fs.append tmp.ino (stateBody n)).sync tmp.ino).rename tmp.name disk.name
    replaced := i :: made.replaced }
  have hparent : StateCell.createDirAll (.faultless suffix) s = (.ok (), s) := rfl
  have hmade : StateCell.newIn (.faultless suffix) i s = (.ok tmp, made) := by
    simp [StateCell.newIn, StateCell.syscall, DiskIo.faultless, hnew, tmp, made]
  have hentry : filled.fs.dir disk.name = some tmp.ino := by
    change ((_ : FileSystem String).rename tmp.name disk.name).dir disk.name = _
    rw [FileSystem.rename_dir_new hname]
    exact Function.update_self ..
  have hmode : StateCell.setPermissions (.faultless suffix) disk.name filled =
      (.ok (), { filled with fs := filled.fs.chmod tmp.ino 0o600 }) := by
    simp [StateCell.setPermissions, StateCell.syscall, DiskIo.faultless, hentry]
  refine ⟨{ filled with fs := filled.fs.chmod tmp.ino 0o600 }, ?_, ?_⟩
  · rw [save, exec_andThen_ok (exec_mapErr_ok hparent _), exec_andThen_ok (exec_mapErr_ok hmade _),
      exec_andThen_ok (exec_orRemove (exec_fill i tmp n)), exec_mapErr_ok hmode]
  · change FileSystem.contents _ (filled.fs.dir disk.name) = _
    rw [hentry]
    simp [FileSystem.contents, FileSystem.chmod, FileSystem.sync, FileSystem.append, filled, made,
      StateCell.make, tmp]

end StateDisk

end Tako.Sigstore
