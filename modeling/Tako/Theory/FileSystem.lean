import Mathlib.Logic.Function.Basic

/-!
# A directory that may crash

Files are written to in memory and are on the disk for certain when they have been synced. The
directory is on the disk at some time only: a crash brings back, for each name, an entry that it had
at some time since the last one. If every file that a name has ever had was synced and is as it
should be, then so is the file that it has after a crash (`Published.crash`); a file that is written
under another name and then renamed keeps it so (`Published.rename`).
-/

/-- What is written to a file, and whether all of it is on the disk. -/
structure Inode where
  bytes : List UInt8 := []
  mode : Nat
  synced : Bool := false

/-- The files by their numbers, `next` being the first that is free, and the directory, with what it
was before, since the last crash. -/
structure FileSystem (ν : Type) where
  inodes : Nat → Inode
  next : Nat
  dir : ν → Option Nat
  past : List (ν → Option Nat)

namespace FileSystem

variable {ν : Type}

/-! ## Calls -/

/-- The directory at all times since the last crash. -/
def dirs (fs : FileSystem ν) : List (ν → Option Nat) := fs.dir :: fs.past

def setDir (dir : ν → Option Nat) (fs : FileSystem ν) : FileSystem ν :=
  { fs with dir, past := fs.dirs }

def setInode (i : Nat) (inode : Inode) (fs : FileSystem ν) : FileSystem ν :=
  { fs with inodes := Function.update fs.inodes i inode }

def append (i : Nat) (bytes : List UInt8) (fs : FileSystem ν) : FileSystem ν :=
  fs.setInode i { fs.inodes i with bytes := (fs.inodes i).bytes ++ bytes, synced := false }

def sync (i : Nat) (fs : FileSystem ν) : FileSystem ν :=
  fs.setInode i { fs.inodes i with synced := true }

def chmod (i : Nat) (mode : Nat) (fs : FileSystem ν) : FileSystem ν :=
  fs.setInode i { fs.inodes i with mode }

variable [DecidableEq ν]

/-- A new file under a name. -/
def create (name : ν) (mode : Nat) (fs : FileSystem ν) : FileSystem ν :=
  { (fs.setInode fs.next { mode }).setDir (Function.update fs.dir name (some fs.next)) with
    next := fs.next + 1 }

def rename (old new : ν) (fs : FileSystem ν) : FileSystem ν :=
  fs.setDir (Function.update (Function.update fs.dir new (fs.dir old)) old none)

def unlink (name : ν) (fs : FileSystem ν) : FileSystem ν :=
  fs.setDir (Function.update fs.dir name none)

omit [DecidableEq ν]

/-! ## Crashes -/

/-- What a crash may leave. A file that is not synced may have any contents, and each name may have
any of its entries. -/
structure Crash (fs fs' : FileSystem ν) : Prop where
  kept : ∀ i, (fs.inodes i).synced = true → fs'.inodes i = fs.inodes i
  synced : ∀ i, (fs'.inodes i).synced = true
  next : fs'.next = fs.next
  dir : ∀ name, ∃ d ∈ fs.dirs, fs'.dir name = d name
  past : fs'.past = []

/-! ## What a name stands for -/

variable {fs fs' : FileSystem ν} {name other : ν} {P Q : Option (List UInt8) → Prop}
  {mine : Nat → Prop} {i : Nat} {d : ν → Option Nat}

/-- What is in the file of an entry. -/
def contents (fs : FileSystem ν) (entry : Option Nat) : Option (List UInt8) :=
  entry.map fun i => (fs.inodes i).bytes

/-- No entry is of a file that is not there. -/
def Allocated (fs : FileSystem ν) : Prop := ∀ d ∈ fs.dirs, ∀ name, ∀ i ∈ d name, i < fs.next

/-- Whatever the name has stood for is on the disk, and is as it should be. -/
def Published (name : ν) (P : Option (List UInt8) → Prop) (fs : FileSystem ν) : Prop :=
  ∀ d ∈ fs.dirs, (∀ i ∈ d name, (fs.inodes i).synced = true) ∧ P (fs.contents (d name))

/-- The name has never stood for the file. -/
def Private (name : ν) (i : Nat) (fs : FileSystem ν) : Prop := ∀ d ∈ fs.dirs, i ∉ d name

theorem dir_mem_dirs (fs : FileSystem ν) : fs.dir ∈ fs.dirs := List.mem_cons_self

theorem mem_dirs_setDir {dir : ν → Option Nat} :
    d ∈ (fs.setDir dir).dirs ↔ d = dir ∨ d ∈ fs.dirs := List.mem_cons

theorem Published.mono (h : Published name P fs) (hPQ : ∀ c, P c → Q c) : Published name Q fs :=
  fun d hd => ⟨(h d hd).1, hPQ _ (h d hd).2⟩

/-- After a crash the name stands for something that it has stood for. -/
theorem Published.crash (h : Published name P fs) (hc : Crash fs fs') : Published name P fs' := by
  intro d hd
  obtain rfl : d = fs'.dir := by simpa [dirs, hc.past] using hd
  obtain ⟨d, hd, hdir⟩ := hc.dir name
  obtain ⟨hsynced, hP⟩ := h d hd
  refine ⟨fun i _ => hc.synced i, ?_⟩
  have hcontents : fs'.contents (d name) = fs.contents (d name) := by
    cases hentry : d name with
    | none => rfl
    | some i => simp [contents, hc.kept i (hsynced i hentry)]
  rw [hdir, hcontents]
  exact hP

theorem Allocated.crash (h : Allocated fs) (hc : Crash fs fs') : Allocated fs' := by
  intro d hd name i hi
  obtain rfl : d = fs'.dir := by simpa [dirs, hc.past] using hd
  obtain ⟨d, hd, hdir⟩ := hc.dir name
  rw [hc.next]
  exact h d hd name i (hdir ▸ hi)

/-! ## Calls that do not concern a name -/

/-- The name stands for what it has stood for. -/
structure Unseen (name : ν) (fs fs' : FileSystem ν) : Prop where
  dir : fs'.dir name = fs.dir name
  dirs : ∀ d ∈ fs'.dirs, ∃ d' ∈ fs.dirs, d name = d' name
  bytes : ∀ d ∈ fs.dirs, ∀ i ∈ d name, (fs'.inodes i).bytes = (fs.inodes i).bytes
  synced : ∀ d ∈ fs.dirs, ∀ i ∈ d name, (fs.inodes i).synced = true →
    (fs'.inodes i).synced = true

theorem Unseen.contents_eq (h : Unseen name fs fs') (hd : d ∈ fs.dirs) :
    fs'.contents (d name) = fs.contents (d name) := by
  cases hentry : d name with
  | none => rfl
  | some i => simp [contents, h.bytes d hd i hentry]

theorem Unseen.published (h : Unseen name fs fs') (hP : Published name P fs) :
    Published name P fs' := by
  intro d' hd'
  obtain ⟨d, hd, hentry⟩ := h.dirs d' hd'
  rw [hentry, h.contents_eq hd]
  exact ⟨fun i hi => h.synced d hd i hi ((hP d hd).1 i hi), (hP d hd).2⟩

theorem Unseen.trans {fs'' : FileSystem ν} (h : Unseen name fs fs') (h' : Unseen name fs' fs'')
    (hdirs : fs.dirs ⊆ fs'.dirs) : Unseen name fs fs'' where
  dir := h'.dir.trans h.dir
  dirs d hd := by
    obtain ⟨d', hd', heq⟩ := h'.dirs d hd
    obtain ⟨d'', hd'', heq'⟩ := h.dirs d' hd'
    exact ⟨d'', hd'', heq.trans heq'⟩
  bytes d hd i hi := (h'.bytes d (hdirs hd) i hi).trans (h.bytes d hd i hi)
  synced d hd i hi hs := h'.synced d (hdirs hd) i hi (h.synced d hd i hi hs)

/-- Somebody else's calls, with regard to a name and to files of one's own. -/
structure Steady (name : ν) (mine : Nat → Prop) (fs fs' : FileSystem ν) : Prop where
  dirs : fs.dirs ⊆ fs'.dirs
  bytes : ∀ i, mine i ∨ (∃ d ∈ fs.dirs, i ∈ d name) →
    (fs'.inodes i).bytes = (fs.inodes i).bytes
  synced : ∀ i, mine i → (fs.inodes i).synced = true → (fs'.inodes i).synced = true
  entry : ∀ i, mine i → ∀ other, other ≠ name → i ∈ fs.dir other → i ∈ fs'.dir other
  unseen : ∀ i, mine i → Private name i fs → Private name i fs'

theorem Steady.refl (fs : FileSystem ν) : Steady name mine fs fs :=
  ⟨fun _ h => h, fun _ _ => rfl, fun _ _ h => h, fun _ _ _ _ h => h, fun _ _ h => h⟩

theorem Steady.trans {fs'' : FileSystem ν} (h : Steady name mine fs fs')
    (h' : Steady name mine fs' fs'') : Steady name mine fs fs'' where
  dirs _ hd := h'.dirs (h.dirs hd)
  bytes i hi := by
    have hi' : mine i ∨ ∃ d ∈ fs'.dirs, i ∈ d name :=
      hi.imp_right fun ⟨d, hd, hentry⟩ => ⟨d, h.dirs hd, hentry⟩
    rw [h'.bytes i hi', h.bytes i hi]
  synced i hi hs := h'.synced i hi (h.synced i hi hs)
  entry i hi other hne hentry := h'.entry i hi other hne (h.entry i hi other hne hentry)
  unseen i hi hp := h'.unseen i hi (h.unseen i hi hp)

theorem Steady.weaken {mine' : Nat → Prop} (h : Steady name mine fs fs')
    (hle : ∀ i, mine' i → mine i) : Steady name mine' fs fs' where
  dirs := h.dirs
  bytes i hi := h.bytes i (hi.imp_left (hle i))
  synced i hi := h.synced i (hle i hi)
  entry i hi := h.entry i (hle i hi)
  unseen i hi := h.unseen i (hle i hi)

/-! ### Files -/

theorem setInode_ne {inode : Inode} {j : Nat} (h : j ≠ i) :
    (fs.setInode i inode).inodes j = fs.inodes j := Function.update_of_ne h ..

@[simp] theorem setInode_self (inode : Inode) : (fs.setInode i inode).inodes i = inode :=
  Function.update_self ..

/-- A file that keeps its contents. -/
theorem setInode_same {inode : Inode} (hbytes : inode.bytes = (fs.inodes i).bytes)
    (hsynced : (fs.inodes i).synced = true → inode.synced = true) (j : Nat) :
    ((fs.setInode i inode).inodes j).bytes = (fs.inodes j).bytes ∧
      ((fs.inodes j).synced = true → ((fs.setInode i inode).inodes j).synced = true) := by
  rcases eq_or_ne j i with rfl | hne
  · rw [setInode_self]
    exact ⟨hbytes, hsynced⟩
  · rw [setInode_ne hne]
    exact ⟨rfl, id⟩

theorem setInode_unseen {inode : Inode} (hbytes : inode.bytes = (fs.inodes i).bytes)
    (hsynced : (fs.inodes i).synced = true → inode.synced = true) :
    Unseen name fs (fs.setInode i inode) where
  dir := rfl
  dirs d hd := ⟨d, hd, rfl⟩
  bytes _ _ j _ := (setInode_same hbytes hsynced j).1
  synced _ _ j _ := (setInode_same hbytes hsynced j).2

theorem setInode_steady {inode : Inode} (hbytes : inode.bytes = (fs.inodes i).bytes)
    (hsynced : (fs.inodes i).synced = true → inode.synced = true) :
    Steady name mine fs (fs.setInode i inode) where
  dirs _ hd := hd
  bytes j _ := (setInode_same hbytes hsynced j).1
  synced j _ := (setInode_same hbytes hsynced j).2
  entry _ _ _ _ hentry := hentry
  unseen _ _ hprivate := hprivate

/-- A file that the name has never stood for. -/
theorem setInode_unseen_of_private (h : Private name i fs) (inode : Inode) :
    Unseen name fs (fs.setInode i inode) := by
  have hne : ∀ d ∈ fs.dirs, ∀ j ∈ d name, j ≠ i := by
    rintro d hd j hj rfl
    exact h d hd hj
  refine ⟨rfl, fun d hd => ⟨d, hd, rfl⟩, fun d hd j hj => ?_, fun d hd j hj => ?_⟩
  · rw [setInode_ne (hne d hd j hj)]
  · rw [setInode_ne (hne d hd j hj)]
    exact id

theorem setInode_steady_of_private (h : Private name i fs) (hmine : ¬mine i) (inode : Inode) :
    Steady name mine fs (fs.setInode i inode) := by
  have hne : ∀ j, mine j ∨ (∃ d ∈ fs.dirs, j ∈ d name) → j ≠ i := by
    rintro j (hj | ⟨d, hd, hj⟩) rfl
    · exact hmine hj
    · exact h d hd hj
  refine ⟨fun _ h => h, fun j hj => ?_, fun j hj => ?_, fun _ _ _ _ h => h, fun _ _ h => h⟩
  · rw [setInode_ne (hne j hj)]
  · rw [setInode_ne (hne j (.inl hj))]
    exact id

theorem append_unseen (h : Private name i fs) (bytes : List UInt8) :
    Unseen name fs (fs.append i bytes) := setInode_unseen_of_private h _

theorem append_steady (h : Private name i fs) (hmine : ¬mine i) (bytes : List UInt8) :
    Steady name mine fs (fs.append i bytes) := setInode_steady_of_private h hmine _

theorem sync_unseen (i : Nat) : Unseen name fs (fs.sync i) := setInode_unseen rfl fun _ => rfl

theorem sync_steady (i : Nat) : Steady name mine fs (fs.sync i) :=
  setInode_steady rfl fun _ => rfl

theorem chmod_unseen (i mode : Nat) : Unseen name fs (fs.chmod i mode) := setInode_unseen rfl id

theorem chmod_steady (i mode : Nat) : Steady name mine fs (fs.chmod i mode) :=
  setInode_steady rfl id

/-! ### Entries -/

theorem private_next (h : Allocated fs) (name : ν) : Private name fs.next fs :=
  fun d hd hi => absurd (h d hd name _ hi) (Nat.lt_irrefl _)

theorem Published.setDir (h : Published name P fs)
    (hsynced : ∀ i ∈ d name, (fs.inodes i).synced = true) (hP : P (fs.contents (d name))) :
    Published name P (fs.setDir d) := by
  intro d' hd'
  rcases mem_dirs_setDir.1 hd' with rfl | hd'
  · exact ⟨hsynced, hP⟩
  · exact h d' hd'

theorem Allocated.setDir (h : Allocated fs) (hd : ∀ name, ∀ i ∈ d name, i < fs.next) :
    Allocated (fs.setDir d) := by
  intro d' hd' name i hi
  rcases mem_dirs_setDir.1 hd' with rfl | hd'
  · exact hd name i hi
  · exact h d' hd' name i hi

theorem setDir_unseen (h : d name = fs.dir name) : Unseen name fs (fs.setDir d) := by
  refine ⟨h, fun d' hd' => ?_, fun _ _ _ _ => rfl, fun _ _ _ _ => id⟩
  rcases mem_dirs_setDir.1 hd' with rfl | hd'
  · exact ⟨fs.dir, dir_mem_dirs fs, h⟩
  · exact ⟨d', hd', rfl⟩

theorem setDir_steady (hname : ∀ i, mine i → i ∈ d name → i ∈ fs.dir name)
    (hother : ∀ i, mine i → ∀ other, other ≠ name → i ∈ fs.dir other → i ∈ d other) :
    Steady name mine fs (fs.setDir d) where
  dirs _ hd := List.mem_cons_of_mem _ hd
  bytes _ _ := rfl
  synced _ _ := id
  entry := hother
  unseen i hi hprivate d' hd' hentry := by
    rcases mem_dirs_setDir.1 hd' with rfl | hd'
    · exact hprivate _ (dir_mem_dirs fs) (hname i hi hentry)
    · exact hprivate d' hd' hentry

variable [DecidableEq ν]

theorem unlink_unseen (h : other ≠ name) : Unseen name fs (fs.unlink other) :=
  setDir_unseen (Function.update_of_ne h.symm ..)

theorem unlink_steady (h : other ≠ name) (hother : i ∈ fs.dir other) (hmine : ¬mine i) :
    Steady name mine fs (fs.unlink other) := by
  refine setDir_steady (fun j _ hj => ?_) fun j hj other' _ hentry => ?_
  · rwa [Function.update_of_ne h.symm] at hj
  · have hne : other' ≠ other := by
      rintro rfl
      rw [hother] at hentry
      exact hmine (Option.some.inj hentry ▸ hj)
    rwa [Function.update_of_ne hne]

theorem Allocated.unlink (h : Allocated fs) (other : ν) : Allocated (fs.unlink other) := by
  refine h.setDir fun name i hi => ?_
  rcases eq_or_ne name other with rfl | hne
  · rw [Function.update_self] at hi
    cases hi
  · rw [Function.update_of_ne hne] at hi
    exact h _ (dir_mem_dirs fs) name i hi

@[simp] theorem create_dir (other : ν) (mode : Nat) :
    (fs.create other mode).dir = Function.update fs.dir other (some fs.next) := rfl

@[simp] theorem create_inode (other : ν) (mode : Nat) :
    (fs.create other mode).inodes fs.next = { mode } := Function.update_self ..

theorem mem_dirs_create {mode : Nat} :
    d ∈ (fs.create other mode).dirs ↔ d = (fs.create other mode).dir ∨ d ∈ fs.dirs := List.mem_cons

theorem Allocated.create (h : Allocated fs) (other : ν) (mode : Nat) :
    Allocated (fs.create other mode) := by
  intro d hd name i hi
  change i < fs.next + 1
  rcases mem_dirs_create.1 hd with rfl | hd
  · rcases eq_or_ne name other with rfl | hne
    · rw [create_dir, Function.update_self] at hi
      exact Option.some.inj hi ▸ Nat.lt_succ_self _
    · rw [create_dir, Function.update_of_ne hne] at hi
      exact Nat.lt_succ_of_lt (h _ (dir_mem_dirs fs) name i hi)
  · exact Nat.lt_succ_of_lt (h d hd name i hi)

theorem create_unseen (h : other ≠ name) (hall : Allocated fs) (mode : Nat) :
    Unseen name fs (fs.create other mode) := by
  have hfile := setInode_unseen_of_private (private_next hall name) { mode }
  have hentry : Unseen name (fs.setInode fs.next { mode })
      ((fs.setInode fs.next { mode }).setDir (Function.update fs.dir other (some fs.next))) :=
    setDir_unseen (Function.update_of_ne h.symm ..)
  have hboth := hfile.trans hentry fun _ hd => hd
  exact ⟨hboth.dir, hboth.dirs, hboth.bytes, hboth.synced⟩

theorem create_private (h : other ≠ name) (hall : Allocated fs) (mode : Nat) :
    Private name fs.next (fs.create other mode) := by
  intro d hd
  obtain ⟨d', hd', heq⟩ := (create_unseen h hall mode).dirs d hd
  rw [heq]
  exact private_next hall name d' hd'

theorem create_steady (h : other ≠ name) (hnew : fs.dir other = none) (hall : Allocated fs)
    (hmine : ¬mine fs.next) (mode : Nat) : Steady name mine fs (fs.create other mode) := by
  have hfile := setInode_steady_of_private (private_next hall name) hmine { mode }
  have hentry : Steady name mine (fs.setInode fs.next { mode })
      ((fs.setInode fs.next { mode }).setDir (Function.update fs.dir other (some fs.next))) := by
    refine setDir_steady (fun j _ hj => ?_) fun j _ other' _ hold => ?_
    · rwa [Function.update_of_ne h.symm] at hj
    · have hne : other' ≠ other := by
        rintro rfl
        rw [show (fs.setInode fs.next { mode }).dir other' = none from hnew] at hold
        cases hold
      rwa [Function.update_of_ne hne]
  have hboth := hfile.trans hentry
  exact ⟨hboth.dirs, hboth.bytes, hboth.synced, hboth.entry, hboth.unseen⟩

/-! ### The rename that publishes a file -/

@[simp] theorem rename_inodes (old new : ν) : (fs.rename old new).inodes = fs.inodes := rfl

theorem rename_dir_new (h : other ≠ name) : (fs.rename other name).dir name = fs.dir other := by
  change Function.update (Function.update fs.dir name (fs.dir other)) other none name = _
  rw [Function.update_of_ne h.symm, Function.update_self]

theorem Published.rename (h : Published name P fs) (hne : other ≠ name)
    (hsynced : ∀ i ∈ fs.dir other, (fs.inodes i).synced = true)
    (hP : P (fs.contents (fs.dir other))) : Published name P (fs.rename other name) := by
  have hentry : (fs.rename other name).dir name = fs.dir other := rename_dir_new hne
  refine h.setDir (d := (fs.rename other name).dir) ?_ ?_
  · rwa [hentry]
  · rwa [hentry]

theorem rename_steady (h : other ≠ name) (hother : i ∈ fs.dir other) (hmine : ¬mine i) :
    Steady name mine fs (fs.rename other name) := by
  refine setDir_steady (fun j hj hentry => ?_) fun j hj other' hne hentry => ?_
  · rw [Function.update_of_ne h.symm, Function.update_self, hother] at hentry
    exact absurd (Option.some.inj hentry ▸ hj) hmine
  · have hne' : other' ≠ other := by
      rintro rfl
      rw [hother] at hentry
      exact hmine (Option.some.inj hentry ▸ hj)
    rwa [Function.update_of_ne hne', Function.update_of_ne hne]

theorem Allocated.rename (h : Allocated fs) (old new : ν) : Allocated (fs.rename old new) := by
  refine h.setDir fun name i hi => ?_
  rcases eq_or_ne name old with rfl | hne
  · rw [Function.update_self] at hi
    cases hi
  · rw [Function.update_of_ne hne] at hi
    rcases eq_or_ne name new with rfl | hne'
    · rw [Function.update_self] at hi
      exact h _ (dir_mem_dirs fs) old i hi
    · rw [Function.update_of_ne hne'] at hi
      exact h _ (dir_mem_dirs fs) name i hi

end FileSystem
