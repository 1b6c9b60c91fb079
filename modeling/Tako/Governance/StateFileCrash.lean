import Tako.Governance.Sigstore.PemChain
import Tako.Governance.StateFile

/-!
# The state file survives crashes

Any number of calls of `save` and `load` take their steps on one directory in any order, any of them
is killed at any time, and the machine crashes. Whatever `load` finds is what was there at the start
or the mark of a `save` that has replaced the file (`stateFile_survives`).
-/

namespace Tako.Sigstore

open Async
open Interleaving (Config)
open FileSystem (Published Allocated Private Steady Unseen)

namespace StateDisk

variable {ι W : Type} {disk : StateDisk} {io : DiskIo W} {ops : ι → StateOp}
  {start f : FileState} {i : ι} {s t u : StateCell ι W}

/-! ## What the calls keep -/

/-- The mark that a call is to save. -/
def Marks (ops : ι → StateOp) (j : ι) (f : FileState) : Prop :=
  ∃ n, ops j = .save n ∧ f = .parsed stateFileVersion n.toNat

/-- What was there at the start, or what a call has replaced it with. -/
def Left (ops : ι → StateOp) (start : FileState) (replaced : List ι) (f : FileState) : Prop :=
  f = start ∨ ∃ j ∈ replaced, Marks ops j f

/-- What was there at the start, or what the last call has replaced it with. -/
def Latest (ops : ι → StateOp) (start : FileState) : List ι → FileState → Prop
  | [], f => f = start
  | j :: _, f => Marks ops j f

structure Kept (disk : StateDisk) (ops : ι → StateOp) (start : FileState) (s : StateCell ι W) :
    Prop where
  allocated : s.fs.Allocated
  owned : ∀ ino, s.owner ino ≠ none → ino < s.fs.next
  published : s.fs.Published disk.name fun c => Left ops start s.replaced (disk.found c)
  latest : Latest ops start s.replaced (disk.found (s.fs.contents (s.fs.dir disk.name)))
  once : s.replaced.Nodup

/-- A later state, whoever has made the steps to it. -/
structure Later (disk : StateDisk) (ops : ι → StateOp) (start : FileState) (s s' : StateCell ι W) :
    Prop where
  kept : Kept disk ops start s → Kept disk ops start s'
  replaced : s.replaced <:+ s'.replaced

/-- What the others do. -/
structure Others (disk : StateDisk) (ops : ι → StateOp) (start : FileState) (i : ι)
    (s s' : StateCell ι W) : Prop extends Later disk ops start s s' where
  files : Steady disk.name (fun ino => s.owner ino = some i) s.fs s'.fs
  owner : ∀ ino, s.owner ino = some i → s'.owner ino = some i
  mine : i ∈ s'.replaced ↔ i ∈ s.replaced

/-- What a call does. -/
structure Own (disk : StateDisk) (ops : ι → StateOp) (start : FileState) (i : ι)
    (s s' : StateCell ι W) : Prop extends Later disk ops start s s' where
  others : ∀ j ≠ i, Others disk ops start j s s'

/-- The world goes on, and the directory is left as it is. -/
def Elsewhere (s s' : StateCell ι W) : Prop := ∃ w, s' = { s with world := w }

theorem Later.refl (s : StateCell ι W) : Later disk ops start s s := ⟨id, List.suffix_rfl⟩

theorem Later.trans (h : Later disk ops start s t) (h' : Later disk ops start t u) :
    Later disk ops start s u :=
  ⟨h'.kept ∘ h.kept, h.replaced.trans h'.replaced⟩

theorem Others.refl (i : ι) (s : StateCell ι W) : Others disk ops start i s s :=
  ⟨.refl s, .refl _, fun _ h => h, .rfl⟩

theorem Others.trans (h : Others disk ops start i s t) (h' : Others disk ops start i t u) :
    Others disk ops start i s u where
  toLater := h.toLater.trans h'.toLater
  files := h.files.trans (h'.files.weaken h.owner)
  owner ino hino := h'.owner ino (h.owner ino hino)
  mine := h'.mine.trans h.mine

theorem Own.refl (i : ι) (s : StateCell ι W) : Own disk ops start i s s :=
  ⟨.refl s, fun j _ => .refl j s⟩

theorem Own.trans (h : Own disk ops start i s t) (h' : Own disk ops start i t u) :
    Own disk ops start i s u :=
  ⟨h.toLater.trans h'.toLater, fun j hj => (h.others j hj).trans (h'.others j hj)⟩

theorem elsewhere_later (h : Elsewhere s t) : Later disk ops start s t := by
  obtain ⟨w, rfl⟩ := h
  exact ⟨fun hs => ⟨hs.allocated, hs.owned, hs.published, hs.latest, hs.once⟩, List.suffix_rfl⟩

theorem elsewhere_others (h : Elsewhere s t) : Others disk ops start i s t := by
  have hlater : Later disk ops start s t := elsewhere_later h
  obtain ⟨w, rfl⟩ := h
  exact ⟨hlater, .refl s.fs, fun _ hino => hino, .rfl⟩

theorem elsewhere_own (h : Elsewhere s t) : Own disk ops start i s t :=
  ⟨elsewhere_later h, fun _ _ => elsewhere_others h⟩

theorem interference : Interference (ι := ι) Elsewhere (Others disk ops start)
    (Own disk ops start) (Later disk ops start (W := W)) where
  rely_refl := Others.refl
  rely_trans _ := Others.trans
  rely_of_guarantee hne h := h.others _ hne
  rely_of_env _ := elsewhere_others
  refl := Later.refl
  trans := Later.trans
  of_guarantee _ _ _ h := h.toLater
  of_env := elsewhere_later

/-- A step that the state file's name does not see. -/
theorem Own.of_unseen (hs : Kept disk ops start s) (hreplaced : t.replaced = s.replaced)
    (hallocated : t.fs.Allocated) (howned : ∀ ino, t.owner ino ≠ none → ino < t.fs.next)
    (hunseen : Unseen disk.name s.fs t.fs)
    (howner : ∀ ino j, s.owner ino = some j → t.owner ino = some j)
    (hfiles : ∀ j ≠ i, Steady disk.name (fun ino => s.owner ino = some j) s.fs t.fs) :
    Own disk ops start i s t := by
  have hlater : Later disk ops start s t := by
    refine ⟨fun _ => ⟨hallocated, howned, ?_, ?_, hreplaced ▸ hs.once⟩, hreplaced ▸ List.suffix_rfl⟩
    · rw [hreplaced]
      exact hunseen.published hs.published
    · rw [hreplaced, hunseen.dir, hunseen.contents_eq (FileSystem.dir_mem_dirs _)]
      exact hs.latest
  refine ⟨hlater, fun j hj => ⟨hlater, hfiles j hj, fun ino => howner ino j, ?_⟩⟩
  rw [hreplaced]

/-! ## Steps -/

/-- The call has a temporary file, with some bytes, and has not replaced the state file. -/
structure Holding (disk : StateDisk) (ops : ι → StateOp) (start : FileState) (i : ι)
    (tmp : TmpFile) (bytes : List UInt8) (s : StateCell ι W) : Prop where
  kept : Kept disk ops start s
  first : i ∉ s.replaced
  owner : s.owner tmp.ino = some i
  unseen : s.fs.Private disk.name tmp.ino
  entry : tmp.ino ∈ s.fs.dir tmp.name
  name : tmp.name ≠ disk.name
  bytes : (s.fs.inodes tmp.ino).bytes = bytes

variable {tmp : TmpFile} {bytes : List UInt8}

theorem Holding.others (h : Holding disk ops start i tmp bytes s)
    (hs : Others disk ops start i s t) : Holding disk ops start i tmp bytes t where
  kept := hs.kept h.kept
  first := fun hmem => h.first (hs.mine.1 hmem)
  owner := hs.owner _ h.owner
  unseen := hs.files.unseen _ h.owner h.unseen
  entry := hs.files.entry _ h.owner _ h.name h.entry
  name := h.name
  bytes := (hs.files.bytes _ (.inl h.owner)).trans h.bytes

theorem Holding.not_others (h : Holding disk ops start i tmp bytes s) {j : ι} (hj : j ≠ i) :
    ¬s.owner tmp.ino = some j := by
  intro hown
  rw [h.owner] at hown
  exact hj (Option.some.inj hown).symm

/-- A temporary file is made. -/
theorem make_spec (hs : Kept disk ops start s) (hfirst : i ∉ s.replaced) {name : String}
    (hname : name ≠ disk.name) (hnew : s.fs.dir name = none) :
    Own disk ops start i s (s.make i name) ∧
      Holding disk ops start i ⟨name, s.fs.next⟩ [] (s.make i name) := by
  have hnobody : s.owner s.fs.next = none := by
    by_contra hne
    exact absurd (hs.owned _ hne) (Nat.lt_irrefl _)
  have howned : ∀ ino, (s.make i name).owner ino ≠ none → ino < s.fs.next + 1 := by
    intro ino hino
    rcases eq_or_ne ino s.fs.next with rfl | hne
    · exact Nat.lt_succ_self _
    · rw [StateCell.make_owner, Function.update_of_ne hne] at hino
      exact Nat.lt_succ_of_lt (hs.owned ino hino)
  have howner : ∀ ino j, s.owner ino = some j → (s.make i name).owner ino = some j := by
    intro ino j hino
    have hne : ino ≠ s.fs.next := by
      rintro rfl
      rw [hnobody] at hino
      cases hino
    rwa [StateCell.make_owner, Function.update_of_ne hne]
  have hown : Own disk ops start i s (s.make i name) := by
    refine .of_unseen hs rfl (hs.allocated.create name _) howned
      (FileSystem.create_unseen hname hs.allocated _) howner fun j _ => ?_
    exact FileSystem.create_steady hname hnew hs.allocated (by simp [hnobody]) _
  refine ⟨hown, hown.kept hs, hfirst, Function.update_self .., ?_, ?_, hname, ?_⟩
  · exact FileSystem.create_private hname hs.allocated _
  · exact Function.update_self ..
  · simp [StateCell.make]

/-- The temporary file is written to. -/
theorem append_spec (h : Holding disk ops start i tmp bytes s) (more : List UInt8) (w : W) :
    Own disk ops start i s { s with world := w, fs := s.fs.append tmp.ino more } ∧
      Holding disk ops start i tmp (bytes ++ more)
        { s with world := w, fs := s.fs.append tmp.ino more } := by
  have hown : Own disk ops start i s { s with world := w, fs := s.fs.append tmp.ino more } := by
    refine .of_unseen h.kept rfl h.kept.allocated h.kept.owned
      (FileSystem.append_unseen h.unseen _) (fun _ _ hino => hino) fun j hj => ?_
    exact FileSystem.append_steady h.unseen (h.not_others hj) _
  refine ⟨hown, hown.kept h.kept, h.first, h.owner, h.unseen, h.entry, h.name, ?_⟩
  simp [FileSystem.append, h.bytes]

/-- The temporary file is synced. -/
theorem sync_spec (h : Holding disk ops start i tmp bytes s) :
    Own disk ops start i s { s with fs := s.fs.sync tmp.ino } ∧
      Holding disk ops start i tmp bytes { s with fs := s.fs.sync tmp.ino } ∧
      ((s.fs.sync tmp.ino).inodes tmp.ino).synced = true := by
  have hown : Own disk ops start i s { s with fs := s.fs.sync tmp.ino } :=
    .of_unseen h.kept rfl h.kept.allocated h.kept.owned
      (FileSystem.sync_unseen tmp.ino) (fun _ _ hino => hino)
      fun _ _ => FileSystem.sync_steady tmp.ino
  refine ⟨hown, ⟨hown.kept h.kept, h.first, h.owner, h.unseen, h.entry, h.name, ?_⟩, ?_⟩
  · simp [FileSystem.sync, h.bytes]
  · simp [FileSystem.sync]

/-- The temporary file is removed. -/
theorem unlink_own (h : Holding disk ops start i tmp bytes s) :
    Own disk ops start i s { s with fs := s.fs.unlink tmp.name } :=
  .of_unseen h.kept rfl (h.kept.allocated.unlink _) h.kept.owned
    (FileSystem.unlink_unseen h.name) (fun _ _ hino => hino)
    fun _ hj => FileSystem.unlink_steady h.name h.entry (h.not_others hj)

/-- The mode of whatever file the state file is now. -/
theorem chmod_own (h : Kept disk ops start s) (ino mode : Nat) :
    Own disk ops start i s { s with fs := s.fs.chmod ino mode } :=
  .of_unseen h rfl h.allocated h.owned
    (FileSystem.chmod_unseen ino mode) (fun _ _ hino => hino)
    fun _ _ => FileSystem.chmod_steady ino mode

/-- The temporary file replaces the state file. -/
theorem rename_spec {n : UInt64} (hparse : disk.parse bytes = .parsed stateFileVersion n.toNat)
    (hop : ops i = .save n) (h : Holding disk ops start i tmp bytes s)
    (hsynced : (s.fs.inodes tmp.ino).synced = true) :
    Own disk ops start i s
      { s with fs := s.fs.rename tmp.name disk.name, replaced := i :: s.replaced } := by
  have hcontents : s.fs.contents (s.fs.dir tmp.name) = some bytes := by
    rw [show s.fs.dir tmp.name = some tmp.ino from h.entry, ← h.bytes]
    rfl
  have hmarks : Marks ops i (disk.found (some bytes)) := ⟨n, hop, hparse⟩
  have hlater : Later disk ops start s
      { s with fs := s.fs.rename tmp.name disk.name, replaced := i :: s.replaced } := by
    refine ⟨fun hs => ⟨hs.allocated.rename _ _, hs.owned, ?_, ?_, ?_⟩, List.suffix_cons ..⟩
    · refine Published.rename (hs.published.mono fun c hc => ?_) h.name (fun ino hino => ?_) ?_
      · exact hc.imp_right fun ⟨j, hj, hmark⟩ => ⟨j, List.mem_cons_of_mem _ hj, hmark⟩
      · obtain rfl : tmp.ino = ino := Option.some.inj (h.entry.symm.trans hino)
        exact hsynced
      · rw [hcontents]
        exact .inr ⟨i, List.mem_cons_self, hmarks⟩
    · change Marks ops i (disk.found ((s.fs.rename tmp.name disk.name).contents
        ((s.fs.rename tmp.name disk.name).dir disk.name)))
      rw [FileSystem.rename_dir_new h.name]
      change Marks ops i (disk.found (s.fs.contents (s.fs.dir tmp.name)))
      rwa [hcontents]
    · exact List.nodup_cons.2 ⟨h.first, hs.once⟩
  refine ⟨hlater, fun j hj => ⟨hlater, ?_, fun _ hino => hino, ?_⟩⟩
  · exact FileSystem.rename_steady h.name h.entry (h.not_others hj)
  · simp [hj]

/-! ## Calls -/

/-- What the others leave true. -/
def Stable (disk : StateDisk) (ops : ι → StateOp) (start : FileState) (i : ι)
    (A : StateCell ι W → Prop) : Prop := ∀ {s t}, A s → Others disk ops start i s t → A t

/-- The call keeps to what it may do, and ends so. -/
abbrev Keeps {α : Type} (disk : StateDisk) (ops : ι → StateOp) (start : FileState) (i : ι)
    (x : Async (StateCell ι W) α) (Q : α → StateCell ι W → Prop) (s : StateCell ι W) : Prop :=
  x.Safe (Others disk ops start i) (Own disk ops start i) (Own disk ops start i) Q s

/-- How a part of a call ends. -/
def Outcome {α : Type} (Done : α → StateCell ι W → Prop)
    (Failed : TakoError → StateCell ι W → Prop) : Result α → StateCell ι W → Prop
  | .ok a => Done a
  | .error e => Failed e

variable {α : Type} {A Failed : StateCell ι W → Prop} {Done : α → StateCell ι W → Prop}

theorem syscall_safe {g : StateCell ι W → Except String α × StateCell ι W}
    (hA : Stable disk ops start i A) (hdone : ∀ a, Stable disk ops start i (Done a))
    (hfailed : Stable disk ops start i Failed) (hweak : ∀ {t}, A t → Failed t)
    (hstep : ∀ {t}, A t → Own disk ops start i t (g t).2 ∧ Io.Ends Done Failed (g t).1 (g t).2)
    (hs : A s) : Keeps disk ops start i (atomically (StateCell.syscall io g))
      (Io.Ends Done Failed) s := by
  refine .atomically fun t ht => ⟨.refl i t, ?_⟩
  have hmoved : Own disk ops start i t { t with world := (io.fault t.world).2 } :=
    elsewhere_own ⟨_, rfl⟩
  have hAt : A { t with world := (io.fault t.world).2 } :=
    hA (hA hs ht) (elsewhere_others ⟨_, rfl⟩)
  unfold StateCell.syscall
  dsimp only
  split
  · exact ⟨hmoved, fun u hu => hfailed (hweak hAt) hu⟩
  · obtain ⟨hown, hends⟩ := hstep hAt
    refine ⟨hmoved.trans hown, fun u hu => ?_⟩
    revert hends
    cases (g { t with world := (io.fault t.world).2 }).1 with
    | ok a => exact fun hends => hdone a hends hu
    | error e => exact fun hends => hfailed hends hu

theorem mapErr_safe {x : Async (StateCell ι W) (Except String α)}
    (h : Keeps disk ops start i x (Io.Ends Done Failed) s)
    (hdone : ∀ a, Stable disk ops start i (Done a)) (hfailed : Stable disk ops start i Failed)
    (context : String) : Keeps disk ops start i (mapErr context x)
      (Outcome Done fun e t => (∃ m, e = invalid context m) ∧ Failed t) s := by
  refine .bind (Others.refl i) h fun r t ht => .pure fun u hu => ?_
  cases r with
  | ok a => exact hdone a ht hu
  | error m => exact ⟨⟨m, rfl⟩, hfailed ht hu⟩

/-! ### Saves -/

/-- The call has not replaced the state file. -/
def Before (disk : StateDisk) (ops : ι → StateOp) (start : FileState) (i : ι)
    (s : StateCell ι W) : Prop := Kept disk ops start s ∧ i ∉ s.replaced

/-- The call has replaced the state file. -/
def After (disk : StateDisk) (ops : ι → StateOp) (start : FileState) (i : ι)
    (s : StateCell ι W) : Prop := Kept disk ops start s ∧ i ∈ s.replaced

/-- An error with which a save leaves the file as it is. -/
def Refused (disk : StateDisk) (n : UInt64) (e : TakoError) : Prop :=
  ∃ how, disk.store.save n.toNat how .missing = (.error e, .missing)

/-- What a save comes to, as far as others see it. -/
def Saved (disk : StateDisk) (i : ι) (n : UInt64) (r : Result Unit) (s : StateCell ι W) : Prop :=
  ∃ how, r = (disk.store.save n.toNat how .missing).1 ∧
    (i ∈ s.replaced ↔ (disk.store.save n.toNat how .missing).2 = .parsed stateFileVersion n.toNat)

theorem before_stable : Stable disk ops start i (Before disk ops start i (W := W)) :=
  fun hs ht => ⟨ht.kept hs.1, fun hmem => hs.2 (ht.mine.1 hmem)⟩

theorem after_stable : Stable disk ops start i (After disk ops start i (W := W)) :=
  fun hs ht => ⟨ht.kept hs.1, ht.mine.2 hs.2⟩

theorem Holding.before (h : Holding disk ops start i tmp bytes s) : Before disk ops start i s :=
  ⟨h.kept, h.first⟩

/-- Some bytes or other are in the temporary file. -/
def Open (disk : StateDisk) (ops : ι → StateOp) (start : FileState) (i : ι) (tmp : TmpFile)
    (s : StateCell ι W) : Prop := ∃ bytes, Holding disk ops start i tmp bytes s

theorem open_stable : Stable disk ops start i (Open disk ops start i tmp (W := W)) :=
  fun ⟨bytes, hs⟩ ht => ⟨bytes, hs.others ht⟩

theorem newIn_safe (hname : ∀ suffix, ".tmp" ++ suffix ≠ disk.name)
    (hs : Before disk ops start i s) : Keeps disk ops start i (atomically (StateCell.newIn io i))
      (Io.Ends (fun tmp => Holding disk ops start i tmp []) (Before disk ops start i)) s := by
  refine syscall_safe before_stable (fun _ => Holding.others) before_stable id (fun {t} ht => ?_) hs
  have hmoved : Own disk ops start i t { t with world := (io.suffix t.world).2 } :=
    elsewhere_own ⟨_, rfl⟩
  have hbefore : Before disk ops start i { t with world := (io.suffix t.world).2 } :=
    ⟨hmoved.kept ht.1, ht.2⟩
  dsimp only
  split
  · exact ⟨hmoved, hbefore⟩
  · next hnew =>
    obtain ⟨hown, hholding⟩ := make_spec hbefore.1 hbefore.2 (hname _) hnew
    exact ⟨hmoved.trans hown, hholding⟩

/-- A write that takes some of what is left of the body. -/
theorem write_spec (io : DiskIo W) (rest : List UInt8)
    (h : Holding disk ops start i tmp bytes s) :
    Own disk ops start i s (s.write io tmp rest).2 ∧
      (∀ n, (s.write io tmp rest).1 = .ok n →
        Holding disk ops start i tmp (bytes ++ rest.take n) (s.write io tmp rest).2) ∧
      Open disk ops start i tmp (s.write io tmp rest).2 := by
  have hmoved : ∀ w, Own disk ops start i s { s with world := w } :=
    fun w => elsewhere_own ⟨w, rfl⟩
  unfold StateCell.write
  dsimp only
  split
  · refine ⟨hmoved _, nofun, bytes, h.others (elsewhere_others ⟨_, rfl⟩)⟩
  · next n _ =>
    obtain ⟨hown, hholding⟩ := append_spec h (rest.take n) (io.write rest.length s.world).2
    refine ⟨hown, fun m hm => ?_, _, hholding⟩
    obtain rfl := Except.ok.inj hm
    exact hholding

theorem write_safe {body : List UInt8} (h : Holding disk ops start i tmp [] s) :
    Keeps disk ops start i (Io.writeAll (StateCell.write io tmp) body.length body)
      (Io.Ends (fun _ => Holding disk ops start i tmp body) (Open disk ops start i tmp)) s := by
  refine (Io.writeAll_safe
    (fun rest t => ∃ taken, taken ++ rest = body ∧ Holding disk ops start i tmp taken t)
    (Open disk ops start i tmp) (Others.refl i) (Own.refl i)
    (fun ⟨taken, hbody, hs⟩ ht => ⟨taken, hbody, hs.others ht⟩) open_stable ?_ _ body le_rfl
    ⟨[], rfl, h⟩).weaken ?_
  · rintro rest t - ⟨taken, hbody, ht⟩
    obtain ⟨hown, hmore, hopen⟩ := write_spec io rest ht
    refine ⟨hown, fun n hn => ⟨_, ?_, hmore _ hn⟩, fun _ => hopen⟩
    rw [List.append_assoc, List.take_append_drop, hbody]
  · intro r t ht
    cases r with
    | ok _ =>
      obtain ⟨taken, hbody, ht⟩ := ht
      rw [List.append_nil] at hbody
      exact hbody ▸ ht
    | error _ => exact ht

/-- The temporary file is written, synced and renamed, or it is left as it is. -/
theorem fill_safe {n : UInt64}
    (hparse : disk.parse (stateBody n) = .parsed stateFileVersion n.toNat) (hop : ops i = .save n)
    (h : Holding disk ops start i tmp [] s) :
    Keeps disk ops start i (disk.fill io i tmp n)
      (Outcome (fun _ => After disk ops start i)
        fun e t => Refused disk n e ∧ Open disk ops start i tmp t) s := by
  have hsynced_stable : Stable disk ops start i fun t : StateCell ι W =>
      Holding disk ops start i tmp (stateBody n) t ∧ (t.fs.inodes tmp.ino).synced = true :=
    fun hs ht => ⟨hs.1.others ht, ht.files.synced _ hs.1.owner hs.2⟩
  refine .andThen (Others.refl i)
    (mapErr_safe (write_safe h) (fun _ => Holding.others) open_stable _) (fun _ t ht => ?_)
    fun e t u ht hu => ?_
  · have hsync : Keeps disk ops start i (atomically (StateCell.syncAll io tmp))
        (Io.Ends (fun _ t => Holding disk ops start i tmp (stateBody n) t ∧
          (t.fs.inodes tmp.ino).synced = true) (Open disk ops start i tmp)) t := by
      refine syscall_safe Holding.others (fun _ => hsynced_stable) open_stable (fun hs => ⟨_, hs⟩)
        (fun hs => ?_) ht
      obtain ⟨hown, hholding, hsynced⟩ := sync_spec hs
      exact ⟨hown, hholding, hsynced⟩
    refine .andThen (Others.refl i) (mapErr_safe hsync (fun _ => hsynced_stable) open_stable _)
      (fun _ u hu => ?_) fun e u v hu hv => ?_
    · have hpersist : Keeps disk ops start i (atomically (StateCell.persist io i tmp disk.name))
          (Io.Ends (fun _ => After disk ops start i) (Open disk ops start i tmp)) u := by
        refine syscall_safe hsynced_stable (fun _ => after_stable) open_stable
          (fun hs => ⟨_, hs.1⟩) (fun hs => ?_) hu
        have hown := rename_spec hparse hop hs.1 hs.2
        exact ⟨hown, hown.kept hs.1.kept, List.mem_cons_self⟩
      refine (mapErr_safe hpersist (fun _ => after_stable) open_stable _).weaken fun r v hv => ?_
      cases r with
      | ok _ => exact hv
      | error e =>
        obtain ⟨⟨m, rfl⟩, hopen⟩ := hv
        exact ⟨⟨.persistTmp m, rfl⟩, hopen⟩
    · obtain ⟨⟨m, rfl⟩, hopen⟩ := hu
      exact ⟨⟨.fsyncTmp _ m, rfl⟩, open_stable hopen hv⟩
  · obtain ⟨⟨m, rfl⟩, hopen⟩ := ht
    exact ⟨⟨.writeTmp _ m, rfl⟩, open_stable hopen hu⟩

theorem orRemove_safe {n : UInt64} {x : Async (StateCell ι W) (Result Unit)}
    (h : Keeps disk ops start i x (Outcome (fun _ => After disk ops start i)
      fun e t => Refused disk n e ∧ Open disk ops start i tmp t) s) :
    Keeps disk ops start i (orRemove io tmp x) (Outcome (fun _ => After disk ops start i)
      fun e t => Refused disk n e ∧ Before disk ops start i t) s := by
  refine .bind (Others.refl i) h fun r t ht => ?_
  cases r with
  | ok _ => exact .pure fun u hu => after_stable ht hu
  | error e =>
    have hremove : Keeps disk ops start i (atomically (StateCell.remove io tmp))
        (Io.Ends (fun _ => Before disk ops start i) (Before disk ops start i)) t := by
      refine syscall_safe open_stable (fun _ => before_stable) before_stable
        (fun ⟨_, hs⟩ => hs.before) (fun ⟨_, hs⟩ => ?_) ht.2
      have hown := unlink_own hs
      exact ⟨hown, hown.kept hs.kept, hs.first⟩
    refine .bind (Others.refl i) hremove fun r u hu => .pure fun v hv => ⟨ht.1, ?_⟩
    cases r with
    | ok _ => exact before_stable hu hv
    | error _ => exact before_stable hu hv

theorem Saved.of_refused {n : UInt64} {e : TakoError} (h : Refused disk n e)
    (hs : Before disk ops start i s) : Saved disk i n (.error e) s := by
  obtain ⟨how, heq⟩ := h
  refine ⟨how, by rw [heq], ?_⟩
  rw [heq]
  exact iff_of_false hs.2 nofun

/-- Once the state file is replaced, a save can only fail to set the mode. -/
theorem setPermissions_safe {n : UInt64} (hs : After disk ops start i s) :
    Keeps disk ops start i (mapErr s!"sigstore_state: chmod 0600 {disk.store.path}"
      (atomically (StateCell.setPermissions io disk.name))) (Saved disk i n) s := by
  have hchmod : Keeps disk ops start i (atomically (StateCell.setPermissions io disk.name))
      (Io.Ends (fun _ => After disk ops start i) (After disk ops start i)) s := by
    refine syscall_safe after_stable (fun _ => after_stable) after_stable id (fun {t} ht => ?_) hs
    split
    · exact ⟨.refl i t, ht⟩
    · next ino _ =>
      have hown := chmod_own (i := i) ht.1 ino 0o600
      exact ⟨hown, hown.kept ht.1, ht.2⟩
  refine (mapErr_safe hchmod (fun _ => after_stable) after_stable _).weaken fun r t ht => ?_
  cases r with
  | ok _ => exact ⟨.ok, rfl, iff_of_true ht.2 rfl⟩
  | error e =>
    obtain ⟨⟨m, rfl⟩, hafter⟩ := ht
    exact ⟨.chmod m, rfl, iff_of_true hafter.2 rfl⟩

theorem save_safe {n : UInt64} (hname : ∀ suffix, ".tmp" ++ suffix ≠ disk.name)
    (hparse : disk.parse (stateBody n) = .parsed stateFileVersion n.toNat)
    (hop : ops i = .save n) (hs : Before disk ops start i s) :
    Keeps disk ops start i (disk.save io i n) (Saved disk i n) s := by
  have hparent : Keeps disk ops start i (atomically (StateCell.createDirAll io))
      (Io.Ends (fun _ => Before disk ops start i) (Before disk ops start i)) s :=
    syscall_safe before_stable (fun _ => before_stable) before_stable id
      (fun ht => ⟨.refl i _, ht⟩) hs
  refine .andThen (Others.refl i)
    (mapErr_safe hparent (fun _ => before_stable) before_stable _) (fun _ t ht => ?_)
    fun e t u ht hu => ?_
  · refine .andThen (Others.refl i)
      (mapErr_safe (newIn_safe hname ht) (fun _ => Holding.others) before_stable _)
      (fun tmp u hu => ?_) fun e u v hu hv => ?_
    · refine .andThen (Others.refl i) (orRemove_safe (fill_safe hparse hop hu))
        (fun _ v hv => setPermissions_safe hv) fun e v w hv hw => ?_
      exact .of_refused hv.1 (before_stable hv.2 hw)
    · obtain ⟨⟨m, rfl⟩, hbefore⟩ := hu
      exact .of_refused ⟨.openTmp _ m, rfl⟩ (before_stable hbefore hv)
  · obtain ⟨⟨m, rfl⟩, hbefore⟩ := ht
    exact .of_refused ⟨.createParent _ m, rfl⟩ (before_stable hbefore hu)

/-! ### Loads -/

/-- What a load comes to: it reads what was there at the start or the mark of a save, unless it
cannot read. -/
def Loaded (disk : StateDisk) (ops : ι → StateOp) (start : FileState) (r : Result Nat)
    (s : StateCell ι W) : Prop :=
  ∃ f, r = disk.store.load f ∧ (Left ops start s.replaced f ∨ ∃ e, f = .unreadable e)

/-- A file that the state file is or was, with its bytes. -/
structure Opened (disk : StateDisk) (ops : ι → StateOp) (start : FileState) (ino : Nat)
    (bytes : List UInt8) (s : StateCell ι W) : Prop where
  left : Left ops start s.replaced (disk.parse bytes)
  entry : ∃ d ∈ s.fs.dirs, ino ∈ d disk.name
  bytes : (s.fs.inodes ino).bytes = bytes

theorem Left.mono {replaced replaced' : List ι} (h : Left ops start replaced f)
    (hle : replaced <:+ replaced') : Left ops start replaced' f :=
  h.imp_right fun ⟨j, hj, hmark⟩ => ⟨j, hle.subset hj, hmark⟩

theorem Opened.others {ino : Nat} (h : Opened disk ops start ino bytes s)
    (hs : Others disk ops start i s t) : Opened disk ops start ino bytes t where
  left := h.left.mono hs.replaced
  entry := h.entry.imp fun _ hd => ⟨hs.files.dirs hd.1, hd.2⟩
  bytes := (hs.files.bytes _ (.inr h.entry)).trans h.bytes

theorem loaded_stable (r : Result Nat) :
    Stable disk ops start i (Loaded disk ops start r (W := W)) :=
  fun ⟨f, hr, hf⟩ ht => ⟨f, hr, hf.imp_left fun hleft => hleft.mono ht.replaced⟩

theorem unreadable_loaded (e : String) :
    Loaded disk ops start (disk.store.load (.unreadable e)) s := ⟨_, rfl, .inr ⟨e, rfl⟩⟩

/-- Whatever happens beside it, a file is read as it is. -/
theorem read_safe {ino : Nat} (h : Opened disk ops start ino bytes s) :
    Keeps disk ops start i (Io.readToEnd (StateCell.read io ino) (bytes.length + 1) [])
      (Io.Ends (fun all t => Opened disk ops start ino bytes t ∧ all = bytes) fun _ => True) s := by
  refine Io.readToEnd_safe (fun part t => Opened disk ops start ino bytes t ∧ part <+: bytes)
    (fun all t => Opened disk ops start ino bytes t ∧ all = bytes) (fun _ => True) bytes.length
    (Others.refl i) (Own.refl i) (fun hs ht => ⟨hs.1.others ht, hs.2⟩)
    (fun hs ht => ⟨hs.1.others ht, hs.2⟩) (fun _ _ => trivial) (fun hs => hs.2.length_le)
    (fun {part t} hs => ?_) _ [] (by simp) ⟨h, List.nil_prefix⟩
  obtain ⟨hopened, rest, rfl⟩ := hs
  have hown : Own disk ops start i t (t.read io ino part.length).2 := elsewhere_own ⟨_, rfl⟩
  have hafter : Opened disk ops start ino (part ++ rest) (t.read io ino part.length).2 :=
    hopened.others (i := i) (elsewhere_others ⟨_, rfl⟩)
  have hresult : (t.read io ino part.length).1 =
      (io.read rest.length t.world).1.map fun n => rest.take (max 1 n) := by
    simp [StateCell.read, hopened.bytes]
  refine ⟨hown, ?_⟩
  rw [hresult]
  cases (io.read rest.length t.world).1 with
  | error e => trivial
  | ok n =>
    change if rest.take (max 1 n) = [] then _ else _
    split
    · next hend =>
      have hnil : rest = [] := by
        cases rest with
        | nil => rfl
        | cons b rest =>
          rw [List.take_eq_nil_iff] at hend
          rcases hend with hmax | hcons
          · omega
          · exact hcons
      exact ⟨hafter, by rw [hnil, List.append_nil]⟩
    · exact ⟨hafter, List.prefix_append_right_inj _ |>.2 (List.take_prefix ..)⟩

theorem load_safe (hs : Kept disk ops start s) :
    Keeps disk ops start i (disk.load io) (Loaded disk ops start) s := by
  have hopen : Keeps disk ops start i (atomically (StateCell.openFile io disk.name))
      (Io.Ends (fun found t => (found = none → Left ops start t.replaced .missing) ∧
        ∀ ino size, found = some (ino, size) →
          ∃ bytes, Opened disk ops start ino bytes t ∧ size = bytes.length) fun _ => True) s := by
    refine syscall_safe (fun hs ht => ht.kept hs) (fun found {t u} ht hu => ?_)
      (fun _ _ => trivial) (fun _ => trivial) (fun {t} ht => ⟨.refl i t, ?_, ?_⟩) hs
    · refine ⟨fun hnone => (ht.1 hnone).mono hu.replaced, fun ino size hsome => ?_⟩
      obtain ⟨bytes, hopened, hsize⟩ := ht.2 ino size hsome
      exact ⟨bytes, hopened.others hu, hsize⟩
    · intro hnone
      have hleft := (ht.published _ (FileSystem.dir_mem_dirs _)).2
      rwa [Option.map_eq_none_iff.1 hnone] at hleft
    · intro ino size hsome
      obtain ⟨ino', hdir, heq⟩ := Option.map_eq_some_iff.1 hsome
      obtain ⟨rfl, rfl⟩ := Prod.mk.inj heq
      have hleft := (ht.published _ (FileSystem.dir_mem_dirs _)).2
      rw [hdir] at hleft
      exact ⟨_, ⟨hleft, ⟨_, FileSystem.dir_mem_dirs _, hdir⟩, rfl⟩, rfl⟩
  refine .bind (Others.refl i) hopen fun found t ht => ?_
  split
  · next e => exact .pure fun u hu => unreadable_loaded e
  · exact .pure fun u hu => loaded_stable _ ⟨_, rfl, .inl (ht.1 rfl)⟩ hu
  · next ino size =>
    obtain ⟨bytes, hopened, rfl⟩ := ht.2 ino size rfl
    refine .bind (Others.refl i) (read_safe hopened) fun r u hu => ?_
    split
    · next e => exact .pure fun v hv => unreadable_loaded e
    · obtain ⟨hopened, rfl⟩ := hu
      exact .pure fun v hv => loaded_stable _ ⟨_, rfl, .inl hopened.left⟩ hv

/-! ## Runs -/

/-- What a call that is through has come to. -/
def Replied (disk : StateDisk) (ops : ι → StateOp) (start : FileState) (i : ι) :
    StateReply → StateCell ι W → Prop
  | .saved r, s => ∃ n, ops i = .save n ∧ Saved disk i n r s
  | .loaded r, s => Loaded disk ops start r s

theorem run_safe (hname : ∀ suffix, ".tmp" ++ suffix ≠ disk.name)
    (hparse : ∀ n, disk.parse (stateBody n) = .parsed stateFileVersion n.toNat)
    (hs : Before disk ops start i s) :
    Keeps disk ops start i ((ops i).run disk io i) (Replied disk ops start i) s := by
  cases hop : ops i with
  | save n =>
    refine .bind (Others.refl i) (save_safe hname (hparse n) hop hs) fun r t ht =>
      .pure fun u hu => ?_
    obtain ⟨how, hr, hreplaced⟩ := ht
    exact ⟨n, hop, how, hr, hu.mine.trans hreplaced⟩
  | load =>
    exact .bind (Others.refl i) (load_safe hs.1) fun r t ht => .pure fun u hu =>
      loaded_stable r ht hu

/-- Nothing but one directory is on the disk, with a state file that reads as `f`. -/
structure Settled (disk : StateDisk) (f : FileState) (fs : FileSystem String) : Prop where
  allocated : fs.Allocated
  past : fs.past = []
  synced : ∀ ino ∈ fs.dir disk.name, (fs.inodes ino).synced = true
  found : disk.found (fs.contents (fs.dir disk.name)) = f

theorem Settled.kept {fs : FileSystem String} (h : Settled disk start fs) (w : W) :
    Kept disk ops start (⟨w, fs, fun _ => none, []⟩ : StateCell ι W) where
  allocated := h.allocated
  owned _ hne := absurd rfl hne
  published d hd := by
    obtain rfl : d = fs.dir := by simpa [FileSystem.dirs, h.past] using hd
    exact ⟨h.synced, .inl h.found⟩
  latest := h.found
  once := List.nodup_nil

/-- After a crash there is a state file that was there before. -/
theorem Kept.crash {fs : FileSystem String} (h : Kept disk ops start s)
    (hc : FileSystem.Crash s.fs fs) : ∃ f, Left ops start s.replaced f ∧ Settled disk f fs := by
  have hpublished := h.published.crash hc _ (FileSystem.dir_mem_dirs fs)
  exact ⟨_, hpublished.2, h.allocated.crash hc, hc.past, fun ino _ => hc.synced ino, rfl⟩

/-- What was there before all lives, or a mark that has replaced it. -/
def Past (start : FileState) (marks : List UInt64) (f : FileState) : Prop :=
  f = start ∨ ∃ n ∈ marks, f = .parsed stateFileVersion n.toNat

theorem Past.left {marks : List UInt64} {now : FileState} {replaced : List ι}
    (h : Past start marks now) (hf : Left ops now replaced f) :
    Past start (replaced.filterMap (fun i => (ops i).mark) ++ marks) f := by
  rcases hf with rfl | ⟨j, hj, n, hop, rfl⟩
  · exact h.imp_right fun ⟨n, hn, heq⟩ => ⟨n, List.mem_append_right _ hn, heq⟩
  · refine .inr ⟨n, List.mem_append_left _ (List.mem_filterMap.2 ⟨j, hj, ?_⟩), rfl⟩
    rw [hop]
    rfl

variable [DecidableEq ι]

/-- Calls that have not begun. -/
def calls (disk : StateDisk) (io : DiskIo W) (ops : ι → StateOp) (fs : FileSystem String) (w : W) :
    Config ι (StateCell ι W) (Option (Async (StateCell ι W) StateReply)) :=
  ⟨⟨w, fs, fun _ => none, []⟩, fun i => some ((ops i).run disk io i)⟩

/-- What may be on the disk after some lives of the machine, in each of which calls run beside one
another until it crashes, with the marks that have replaced the state file. -/
inductive Lives (ι : Type) [DecidableEq ι] (disk : StateDisk) (io : DiskIo W)
    (fs : FileSystem String) : List UInt64 → FileSystem String → Prop
  | none : Lives ι disk io fs [] fs
  | crash {ops : ι → StateOp}
    {c : Config ι (StateCell ι W) (Option (Async (StateCell ι W) StateReply))} :
    Lives ι disk io fs marks fs' → Run Elsewhere (calls disk io ops fs' w) c →
    FileSystem.Crash c.shared.fs fs'' →
    Lives ι disk io fs (c.shared.replaced.filterMap (fun i => (ops i).mark) ++ marks) fs''

variable {c : Config ι (StateCell ι W) (Option (Async (StateCell ι W) StateReply))}

/-- One life. -/
theorem run_kept (hname : ∀ suffix, ".tmp" ++ suffix ≠ disk.name)
    (hparse : ∀ n, disk.parse (stateBody n) = .parsed stateFileVersion n.toNat)
    {fs : FileSystem String} (hfs : Settled disk start fs) {w : W}
    (h : Run Elsewhere (calls disk io ops fs w) c) :
    Kept disk ops start c.shared ∧
      ∀ i r, c.locals i = some (.done r) → Replied disk ops start i r c.shared := by
  have hF : Interference Elsewhere (Others disk ops start) (Own disk ops start)
    (Later disk ops start (W := W)) := interference
  have hsafe : AllSafe (Others disk ops start) (Own disk ops start) (Replied disk ops start)
      (calls disk io ops fs w) := by
    intro i x hx
    obtain rfl := Option.some.inj hx
    exact run_safe hname hparse ⟨hfs.kept w, List.not_mem_nil⟩
  obtain ⟨hall, hlater⟩ := h.safe hF hsafe
  exact ⟨hlater.kept (hfs.kept w), fun i r hi => hall.result hF hi⟩

/-- Any number of lives. -/
theorem Lives.settled (hname : ∀ suffix, ".tmp" ++ suffix ≠ disk.name)
    (hparse : ∀ n, disk.parse (stateBody n) = .parsed stateFileVersion n.toNat)
    {fs fs' : FileSystem String} {marks : List UInt64} (hfs : Settled disk start fs)
    (h : Lives ι disk io fs marks fs') : ∃ now, Past start marks now ∧ Settled disk now fs' := by
  induction h with
  | none => exact ⟨start, .inl rfl, hfs⟩
  | crash _ hrun hcrash ih =>
    obtain ⟨now, hpast, hnow⟩ := ih
    obtain ⟨f, hleft, hf⟩ := (run_kept hname hparse hnow hrun).1.crash hcrash
    exact ⟨f, hpast.left hleft, hf⟩

/-- In any life after any others, the state file is what was there at the start of it or the mark of
the save that has replaced it last, a call comes to what it comes to alone, up to the errors of the
system calls, and a crash at any time leaves a state file that was there during that life. -/
theorem stateFile_survives (hname : ∀ suffix, ".tmp" ++ suffix ≠ disk.name)
    (hparse : ∀ n, disk.parse (stateBody n) = .parsed stateFileVersion n.toNat)
    {fs fs' : FileSystem String} {marks : List UInt64} (hfs : Settled disk start fs)
    (hlives : Lives ι disk io fs marks fs') {w : W}
    (h : Run Elsewhere (calls disk io ops fs' w) c) :
    ∃ now, Past start marks now ∧
      Latest ops now c.shared.replaced
        (disk.found (c.shared.fs.contents (c.shared.fs.dir disk.name))) ∧
      c.shared.replaced.Nodup ∧
      (∀ i r, c.locals i = some (.done r) → Replied disk ops now i r c.shared) ∧
      ∀ after, FileSystem.Crash c.shared.fs after →
        Left ops now c.shared.replaced (disk.found (after.contents (after.dir disk.name))) := by
  obtain ⟨now, hpast, hnow⟩ := hlives.settled hname hparse hfs
  obtain ⟨hkept, hreplied⟩ := run_kept hname hparse hnow h
  refine ⟨now, hpast, hkept.latest, hkept.once, hreplied, fun after hcrash => ?_⟩
  obtain ⟨f, hleft, hf⟩ := hkept.crash hcrash
  exact hf.found ▸ hleft

/-! ### A sample -/

/-- The number in a body, if it is one. -/
def sampleParse (bytes : List UInt8) : FileState :=
  match String.fromUTF8? ⟨bytes.toArray⟩ with
  | none => .malformed "invalid unicode code point"
  | some text =>
    let n := Nat.ofDigitChars 10 ((text.toList.drop 35).dropLast) 0
    if stateBody n.toUInt64 = bytes then .parsed stateFileVersion n else .malformed "expected value"

def sampleDisk : StateDisk where
  store := ⟨"/var/lib/tako/rekor.json"⟩
  parent := "/var/lib/tako"
  name := "rekor.json"
  display name := "/var/lib/tako/" ++ name
  parse := sampleParse

theorem sampleParse_body (n : UInt64) :
    sampleParse (stateBody n) = .parsed stateFileVersion n.toNat := by
  have htext : String.fromUTF8? ⟨(stateBody n).toArray⟩ =
      some ("\x7b\"version\":1,\"rekor_min_tree_size\":" ++ n.toNat.repr ++ "\x7d") :=
    fromUTF8?_utf8 _
  have hdigits : (("\x7b\"version\":1,\"rekor_min_tree_size\":" ++ n.toNat.repr ++
      "\x7d").toList.drop 35).dropLast = Nat.toDigits 10 n.toNat := by
    simp
  rw [sampleParse, htext]
  dsimp only
  rw [hdigits, Nat.ofDigitChars_ten_toDigits]
  simp

/-- An empty directory. -/
def noFiles : FileSystem String where
  inodes _ := { mode := 0, synced := true }
  next := 0
  dir _ := none
  past := []

theorem noFiles_settled : Settled sampleDisk .missing noFiles where
  allocated _ hd _ _ hi := by
    obtain rfl := List.mem_singleton.1 hd
    cases hi
  past := rfl
  synced _ _ := rfl
  found := rfl

/-- After a save that is through, a crash leaves no file or its mark, and the saves of the next life
replace what is left. -/
theorem stateFile_survives_first : ∃ c : Config Unit (StateCell Unit Unit)
      (Option (Async (StateCell Unit Unit) StateReply)),
    Run Elsewhere (calls sampleDisk (.faultless "aB3dEf") (fun _ => .save 4711) noFiles ()) c ∧
      c.locals () = some (.done (.saved (.ok ()))) ∧
      ∀ after, FileSystem.Crash c.shared.fs after →
        Left (fun _ : Unit => .save 4711) .missing c.shared.replaced
            (sampleDisk.found (after.contents (after.dir "rekor.json"))) ∧
          ∀ (ops : Unit → StateOp) c',
            Run Elsewhere (calls sampleDisk (.faultless "aB3dEf") ops after ()) c' →
            ∃ now, Past .missing (c.shared.replaced.filterMap (fun _ => some 4711)) now ∧
              Latest ops now c'.shared.replaced
                (sampleDisk.found (c'.shared.fs.contents (c'.shared.fs.dir "rekor.json"))) := by
  have hname : ∀ suffix, ".tmp" ++ suffix ≠ sampleDisk.name := by
    intro suffix hname
    have hhead := congrArg (fun t : String => t.toList.head?) hname
    simp [sampleDisk] at hhead
  obtain ⟨t, hexec, -⟩ := exec_save (s := (⟨(), noFiles, fun _ => none, []⟩ : StateCell Unit Unit))
    (hname "aB3dEf") rfl () 4711
  have hrun : ((StateOp.save 4711).run sampleDisk (.faultless "aB3dEf") ()).exec
      ⟨(), noFiles, fun _ => none, []⟩ = some (.saved (.ok ()), t) := by
    rw [StateOp.run, exec_bind, hexec, Option.bind_some, exec_pure]
  have hlife : Run Elsewhere (calls sampleDisk (.faultless "aB3dEf") (fun _ : Unit => .save 4711)
      noFiles ()) _ := Run.exec (i := ()) rfl hrun
  refine ⟨_, hlife, by simp, fun after hcrashed => ⟨?_, fun ops c' hnext => ?_⟩⟩
  · obtain ⟨now, hpast, -, -, -, hcrash⟩ :=
      stateFile_survives hname sampleParse_body noFiles_settled .none hlife
    rcases hpast with rfl | ⟨n, hn, -⟩
    · exact hcrash after hcrashed
    · cases hn
  · have hlives := Lives.crash .none hlife hcrashed
    rw [List.append_nil] at hlives
    obtain ⟨now, hpast, hlatest, -⟩ :=
      stateFile_survives hname sampleParse_body noFiles_settled hlives hnext
    exact ⟨now, hpast, hlatest⟩

end StateDisk

end Tako.Sigstore
