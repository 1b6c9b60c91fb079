import Mathlib.Tactic.Tauto
import Tako.Core.Error
import Tako.Theory.Machine

/-!
# The watcher of mTLS files

`run_watch_loop` (`tako-compat/src/auth/oidc_mtls_watcher.rs`) with the directories that it watches,
where a file may be missing, and the read of one may fail. The watcher loses a rotation in three
ways only: by a swap of the `..data` link, whose events do not have the names of the files, by an
event that finds the channel full, and by a reload that cannot read a file, which is not tried
again.
-/

namespace Tako.Auth

/-! ## Events of the file system -/

/-- The components of a path; an absolute one begins with an empty component. -/
abbrev Path := List String

def display (path : Path) : String := "/".intercalate path

/-- `Path::file_name`, as UTF-8. -/
def fileName (path : Path) : Option String :=
  match path.getLast? with
  | some ".." | some "" => none
  | name => name

def leafFilename (path : Path) : String := (fileName path).getD ""

inductive EventKind where
  | any
  | access
  | create
  | modify
  | remove
  | other
  deriving DecidableEq

structure Event where
  kind : EventKind
  paths : List Path

def EventKind.isRelevant : EventKind → Bool
  | create | modify | remove => true
  | _ => false

def eventTouches (ev : Event) (certName keyName : String) : Bool :=
  ev.kind.isRelevant &&
    ev.paths.any fun p => (fileName p).any fun name => name = certName || name = keyName

/-! ## The watcher and its surroundings -/

inductive IdentityFile where
  | cert
  | key
  deriving DecidableEq

def IdentityFile.other : IdentityFile → IdentityFile
  | .cert => .key
  | .key => .cert

/-- What is found in the two files, if anything. -/
structure Files where
  cert : Option (List UInt8)
  key : Option (List UInt8)
  deriving DecidableEq

namespace Files

def get (files : Files) : IdentityFile → Option (List UInt8)
  | .cert => files.cert
  | .key => files.key

def set (files : Files) (bytes : Option (List UInt8)) : IdentityFile → Files
  | .cert => { files with cert := bytes }
  | .key => { files with key := bytes }

end Files

/-- `fs::read`, which may also fail if the file is there. -/
def readFile (bytes : Option (List UInt8)) (fault : Option String) : Except String (List UInt8) :=
  match fault with
  | some e => .error e
  | none => bytes.elim (.error "No such file or directory (os error 2)") .ok

structure MtlsFsWatcher where
  certPath : Path
  keyPath : Path
  reloadMtlsIdentity : (cert key : List UInt8) → Result Unit

/-- Where the loop is: in its `select!`, or in `do_reload` between its two reads, with the
certificate. A hook may wait for the result. -/
inductive LoopPhase where
  | select
  | readKey (hook : Bool) (cert : List UInt8)
  deriving DecidableEq

/-- Times are in milliseconds. The events of changes go from `undelivered` through the channel;
`read` is what the last read of each file has found. -/
structure WatchState where
  now : Nat := 0
  disk : Files
  read : Files
  undelivered : List Event := []
  channel : List Event := []
  triggers : Nat := 0
  pendingDeadline : Option Nat := none
  phase : LoopPhase := .select
  replies : List (Result Unit) := []

/-- A change of the directories comes with its events; a file without bytes has been removed. A hook
may ask for a reload. If the loop reads a file, the read may fail. -/
inductive WatchMove where
  | tick (d : Nat)
  | write (file : IdentityFile) (bytes : Option (List UInt8)) (events : List Event)
  | swapData (files : Files) (events : List Event)
  | unrelated (events : List Event)
  | notify
  | forceRefresh
  | loop (fault : Option String := none)

namespace MtlsFsWatcher

def debounce : Nat := 500

def eventChannelBound : Nat := 128

variable (w : MtlsFsWatcher)

def path : IdentityFile → Path
  | .cert => w.certPath
  | .key => w.keyPath

def touches (ev : Event) : Bool :=
  eventTouches ev (leafFilename w.certPath) (leafFilename w.keyPath)

/-- The event is about the file, as every in-place write of it and every rename onto it has one. -/
def isAbout (file : IdentityFile) (ev : Event) : Bool :=
  ev.kind.isRelevant && ev.paths.any fun p => fileName p = some (leafFilename (w.path file))

/-- The reply of a reload that cannot read a file. -/
def unread (what : String) (path : Path) (e : String) : TakoError :=
  .invalid s!"oidc.mtls_fs_watcher: failed to read {what} {display path}: {e}"

/-- A reload ends, and a hook that waits has its result. -/
def reply (s : WatchState) (hook : Bool) (result : Result Unit) : WatchState :=
  { s with phase := .select, replies := if hook then s.replies ++ [result] else s.replies }

/-- The first half of `do_reload`. -/
def readCert (s : WatchState) (hook : Bool) (fault : Option String) : WatchState :=
  match readFile s.disk.cert fault with
  | .error e =>
    reply { s with pendingDeadline := none, read := s.read.set none .cert } hook
      (.error (unread "cert" w.certPath e))
  | .ok cert =>
    { s with
      pendingDeadline := none
      read := s.read.set (some cert) .cert
      phase := .readKey hook cert }

/-- The second half. -/
def readKey (s : WatchState) (hook : Bool) (cert : List UInt8) (fault : Option String) :
    WatchState :=
  match readFile s.disk.key fault with
  | .error e =>
    reply { s with read := s.read.set none .key } hook (.error (unread "key" w.keyPath e))
  | .ok key =>
    reply { s with read := s.read.set (some key) .key } hook (w.reloadMtlsIdentity cert key)

/-- What the `select!` takes: a trigger, before an event, before the deadline. -/
def select (s : WatchState) (fault : Option String) : Option WatchState :=
  if s.triggers > 0 then some (w.readCert { s with triggers := s.triggers - 1 } true fault)
  else
    match s.channel with
    | ev :: channel =>
      some
        { s with
          channel
          pendingDeadline := if w.touches ev then some (s.now + debounce) else s.pendingDeadline }
    | [] => (s.pendingDeadline.filter fun d => d ≤ s.now).map fun _ => w.readCert s false fault

/-- The callback of `notify` drops an event if the channel is full. -/
def callback (s : WatchState) (ev : Event) : WatchState :=
  if s.channel.length < eventChannelBound then { s with channel := s.channel ++ [ev] } else s

def step : WatchMove → WatchState → Option WatchState
  | .tick d, s => some { s with now := s.now + d }
  | .write file bytes events, s =>
    if events.any (w.isAbout file) then
      some { s with disk := s.disk.set bytes file, undelivered := s.undelivered ++ events }
    else none
  | .swapData files events, s =>
    if events.all fun ev => !w.touches ev then
      some { s with disk := files, undelivered := s.undelivered ++ events }
    else none
  | .unrelated events, s =>
    if events.all fun ev => !w.touches ev then
      some { s with undelivered := s.undelivered ++ events }
    else none
  | .notify, s =>
    match s.undelivered with
    | ev :: undelivered => some (callback { s with undelivered } ev)
    | [] => none
  | .forceRefresh, s => some { s with triggers := s.triggers + 1 }
  | .loop fault, s =>
    match s.phase with
    | .readKey hook cert => some (w.readKey s hook cert fault)
    | .select => w.select s fault

/-! ## Rotations -/

/-- The disk has other bytes than were last read; a reload that runs still reads the key. -/
def Stale (s : WatchState) : Prop :=
  s.read.cert ≠ s.disk.cert ∨ s.phase = .select ∧ s.read.key ≠ s.disk.key

/-- An event is on its way that sets a deadline. -/
def OnItsWay (events : List Event) : Prop := ∃ ev ∈ events, w.touches ev = true

/-- A deadline is set, or an event is on its way that sets one. -/
def Pending (s : WatchState) : Prop :=
  s.pendingDeadline.isSome = true ∨ w.OnItsWay (s.undelivered ++ s.channel)

/-- Nothing is lost in the state. -/
def Tracked (s : WatchState) : Prop := Stale s → w.Pending s

/-- The file that a move of the loop reads. -/
def nextRead (s : WatchState) : Option IdentityFile :=
  match s.phase with
  | .readKey _ _ => some .key
  | .select =>
    if s.triggers > 0 ∨ (s.channel = [] ∧ (s.pendingDeadline.any fun d => d ≤ s.now)) then
      some .cert
    else none

/-- A swap brings the bytes that were last read, or happens while a reload is pending. An event
finds room, or it is not about the files, or another one is on its way, or the files are as they
were last read. A file can be read, or an event is on its way, or the file is missing and the other
one is as it was last read. -/
def Harmless (s : WatchState) : WatchMove → Prop
  | .swapData files _ =>
    (s.read.cert = files.cert ∧ (s.phase = .select → s.read.key = files.key)) ∨
      s.pendingDeadline.isSome = true ∨ w.OnItsWay (s.undelivered ++ s.channel)
  | .notify =>
    s.channel.length < eventChannelBound ∨ (∀ ev ∈ s.undelivered.head?, w.touches ev = false) ∨
      s.pendingDeadline.isSome = true ∨ w.OnItsWay (s.undelivered.tail ++ s.channel) ∨
      (s.read.cert = s.disk.cert ∧ (s.phase = .select → s.read.key = s.disk.key))
  | .loop fault =>
    ∀ file ∈ nextRead s, (fault = none ∧ (s.disk.get file).isSome = true) ∨
      w.OnItsWay (s.undelivered ++ s.channel) ∨
      (s.disk.get file = none ∧ s.read.get file.other = s.disk.get file.other)
  | _ => True

variable {w} {s s' : WatchState}

theorem touches_of_isAbout {file : IdentityFile} {ev : Event} (h : w.isAbout file ev = true) :
    w.touches ev = true := by
  unfold isAbout at h
  unfold touches eventTouches
  rw [Bool.and_eq_true] at h ⊢
  refine ⟨h.1, ?_⟩
  obtain ⟨p, hp, hname⟩ := List.any_eq_true.1 h.2
  refine List.any_eq_true.2 ⟨p, hp, ?_⟩
  rw [of_decide_eq_true hname]
  cases file <;> simp [path]

theorem not_stale_iff : ¬Stale s ↔
    s.read.cert = s.disk.cert ∧ (s.phase = .select → s.read.key = s.disk.key) := by
  unfold Stale
  tauto

theorem tracked_iff : w.Tracked s ↔ ¬Stale s ∨ w.Pending s := imp_iff_not_or

theorem onItsWay_append {events events' : List Event} :
    w.OnItsWay (events ++ events') ↔ w.OnItsWay events ∨ w.OnItsWay events' := by
  unfold OnItsWay
  simp only [List.mem_append, or_and_right, exists_or]

theorem not_onItsWay_nil : ¬w.OnItsWay [] := by
  rintro ⟨ev, hmem, -⟩
  cases hmem

theorem onItsWay_cons {ev : Event} {events : List Event} :
    w.OnItsWay (ev :: events) ↔ w.touches ev = true ∨ w.OnItsWay events := by
  unfold OnItsWay
  simp only [List.mem_cons, or_and_right, exists_or, exists_eq_left]

/-- Events that are about neither file make no reload pending. -/
theorem not_onItsWay {events : List Event} (h : events.all (fun ev => !w.touches ev) = true) :
    ¬w.OnItsWay events := by
  rintro ⟨ev, hmem, htouches⟩
  have hnot := List.all_eq_true.1 h ev hmem
  rw [htouches] at hnot
  cases hnot

theorem pending_append_iff {events : List Event} (h : events.all (fun ev => !w.touches ev) = true) :
    w.Pending { s with undelivered := s.undelivered ++ events } ↔ w.Pending s := by
  unfold Pending
  simp only [onItsWay_append, not_onItsWay h, or_false]

theorem write_tracked {file : IdentityFile} {bytes : Option (List UInt8)} {events : List Event}
    (hstep : w.step (.write file bytes events) s = some s') : w.Tracked s' := by
  simp only [step, Option.ite_none_right_eq_some, Option.some.injEq] at hstep
  obtain ⟨hany, rfl⟩ := hstep
  obtain ⟨ev, hmem, habout⟩ := List.any_eq_true.1 hany
  exact fun _ => .inr ⟨ev, List.mem_append_left _ (List.mem_append_right _ hmem),
    touches_of_isAbout habout⟩

theorem swapData_tracked_iff {files : Files} {events : List Event}
    (hstep : w.step (.swapData files events) s = some s') :
    w.Tracked s' ↔ w.Harmless s (.swapData files events) := by
  simp only [step, Option.ite_none_right_eq_some, Option.some.injEq] at hstep
  obtain ⟨hall, rfl⟩ := hstep
  rw [tracked_iff, not_stale_iff]
  exact or_congr Iff.rfl (pending_append_iff (s := { s with disk := files }) hall)

theorem unrelated_tracked {events : List Event} (hs : w.Tracked s)
    (hstep : w.step (.unrelated events) s = some s') : w.Tracked s' := by
  simp only [step, Option.ite_none_right_eq_some, Option.some.injEq] at hstep
  obtain ⟨hall, rfl⟩ := hstep
  exact fun hstale => (pending_append_iff hall).2 (hs hstale)

/-- An event that finds room is as much on its way as before, and one that finds none is lost. -/
theorem notify_tracked_iff (hs : w.Tracked s) (hstep : w.step .notify s = some s') :
    w.Tracked s' ↔ w.Harmless s .notify := by
  cases hundelivered : s.undelivered with
  | nil =>
    simp only [step, hundelivered] at hstep
    cases hstep
  | cons ev undelivered =>
    simp only [step, hundelivered, callback, Option.some.injEq] at hstep
    rw [tracked_iff, Pending, hundelivered, List.cons_append, onItsWay_cons] at hs
    simp only [Harmless, hundelivered, List.tail_cons, List.head?_cons, Option.mem_some_iff,
      forall_eq']
    split at hstep
    case isTrue hroom =>
      subst hstep
      refine iff_of_true (tracked_iff.2 (hs.imp_right fun hpending => ?_)) (.inl hroom)
      simp only [Pending, onItsWay_append, onItsWay_cons, not_onItsWay_nil, or_false] at hpending ⊢
      tauto
    case isFalse hfull =>
      subst hstep
      rw [tracked_iff, not_stale_iff, Pending]
      rw [not_stale_iff] at hs
      cases htouches : w.touches ev with
      | true => tauto
      | false => simp_all

/-- What is left to lose after a read that has failed. -/
theorem unread_tracked_iff (file : IdentityFile) (hook : Bool) (result : Result Unit)
    (hdeadline : s.pendingDeadline = none) :
    w.Tracked (reply { s with read := s.read.set none file } hook result) ↔
      w.OnItsWay (s.undelivered ++ s.channel) ∨
        (s.disk.get file = none ∧ s.read.get file.other = s.disk.get file.other) := by
  have hpending : w.Pending (reply { s with read := s.read.set none file } hook result) ↔
      w.OnItsWay (s.undelivered ++ s.channel) := by
    simp [Pending, reply, hdeadline]
  rw [tracked_iff, hpending, not_stale_iff, or_comm]
  refine or_congr Iff.rfl ?_
  cases file with
  | cert => simp [reply, Files.set, Files.get, IdentityFile.other, eq_comm]
  | key => simp [reply, Files.set, Files.get, IdentityFile.other, eq_comm, and_comm]

theorem readFile_eq_ok {bytes : Option (List UInt8)} {fault : Option String} {found : List UInt8} :
    readFile bytes fault = .ok found ↔ fault = none ∧ bytes = some found := by
  cases fault <;> cases bytes <;> simp [readFile]

/-- The read of a file succeeds, or what is left to lose after it is pending. -/
theorem readCert_tracked_iff (s : WatchState) (hook : Bool) (fault : Option String) :
    w.Tracked (w.readCert s hook fault) ↔ (fault = none ∧ s.disk.cert.isSome = true) ∨
      w.OnItsWay (s.undelivered ++ s.channel) ∨
      (s.disk.cert = none ∧ s.read.key = s.disk.key) := by
  unfold readCert
  split
  case h_1 e hread =>
    have hfails : ¬(fault = none ∧ s.disk.cert.isSome = true) := by
      rintro ⟨hfault, hsome⟩
      obtain ⟨found, hfound⟩ := Option.isSome_iff_exists.1 hsome
      rw [readFile_eq_ok.2 ⟨hfault, hfound⟩] at hread
      cases hread
    rw [unread_tracked_iff (s := { s with pendingDeadline := none }) .cert hook _ rfl,
      or_iff_right hfails]
    rfl
  case h_2 cert hread =>
    obtain ⟨hfault, hcert⟩ := readFile_eq_ok.1 hread
    refine iff_of_true (tracked_iff.2 (.inl (not_stale_iff.2 ⟨?_, fun h => ?_⟩)))
      (.inl ⟨hfault, ?_⟩)
    · exact hcert.symm
    · cases h
    · rw [hcert]
      rfl

theorem readKey_tracked_iff (hs : w.Tracked s) (hdeadline : s.pendingDeadline = none) (hook : Bool)
    (cert : List UInt8) (fault : Option String) :
    w.Tracked (w.readKey s hook cert fault) ↔ (fault = none ∧ s.disk.key.isSome = true) ∨
      w.OnItsWay (s.undelivered ++ s.channel) ∨
      (s.disk.key = none ∧ s.read.cert = s.disk.cert) := by
  unfold readKey
  split
  case h_1 e hread =>
    have hfails : ¬(fault = none ∧ s.disk.key.isSome = true) := by
      rintro ⟨hfault, hsome⟩
      obtain ⟨found, hfound⟩ := Option.isSome_iff_exists.1 hsome
      rw [readFile_eq_ok.2 ⟨hfault, hfound⟩] at hread
      cases hread
    rw [unread_tracked_iff .key hook _ hdeadline, or_iff_right hfails]
    rfl
  case h_2 key hread =>
    obtain ⟨hfault, hkey⟩ := readFile_eq_ok.1 hread
    refine iff_of_true (fun hstale => hs (.inl ?_)) (.inl ⟨hfault, by rw [hkey]; rfl⟩)
    exact hstale.resolve_right fun h => h.2 hkey.symm

/-- Between the two reads no deadline is set. -/
def NoDeadline (s : WatchState) : Prop := s.phase = .select ∨ s.pendingDeadline = none

theorem readCert_noDeadline (s : WatchState) (hook : Bool) (fault : Option String) :
    NoDeadline (w.readCert s hook fault) := by
  unfold readCert
  split
  · exact .inl rfl
  · exact .inr rfl

theorem step_noDeadline {m : WatchMove} (hs : NoDeadline s) (hstep : w.step m s = some s') :
    NoDeadline s' := by
  cases m with
  | tick | forceRefresh =>
    cases hstep
    exact hs
  | write | swapData | unrelated =>
    simp only [step, Option.ite_none_right_eq_some, Option.some.injEq] at hstep
    obtain ⟨-, rfl⟩ := hstep
    exact hs
  | notify =>
    simp only [step] at hstep
    split at hstep
    · cases hstep
      unfold callback
      split
      · exact hs
      · exact hs
    · cases hstep
  | loop fault =>
    simp only [step] at hstep
    split at hstep
    case h_1 hook cert _ =>
      cases hstep
      unfold readKey
      split
      · exact .inl rfl
      · exact .inl rfl
    case h_2 hphase =>
      unfold select at hstep
      split at hstep
      · cases hstep
        exact readCert_noDeadline _ true fault
      · split at hstep
        · cases hstep
          exact .inl hphase
        · obtain ⟨d, -, rfl⟩ := Option.map_eq_some_iff.1 hstep
          exact readCert_noDeadline s false fault

/-- An event that is taken sets a deadline, or makes no reload pending. -/
theorem take_tracked {ev : Event} {channel : List Event} (hs : w.Tracked s)
    (hchannel : s.channel = ev :: channel) :
    w.Tracked { s with
      channel
      pendingDeadline := if w.touches ev then some (s.now + debounce) else s.pendingDeadline } := by
  intro hstale
  cases htouches : w.touches ev with
  | true => exact .inl rfl
  | false =>
    have hpending := hs hstale
    simp only [Pending, hchannel, onItsWay_append, onItsWay_cons, htouches, Bool.false_eq_true,
      false_or, if_false] at hpending ⊢
    exact hpending

theorem select_tracked_iff {fault : Option String} (hs : w.Tracked s) (hphase : s.phase = .select)
    (hstep : w.select s fault = some s') : w.Tracked s' ↔ w.Harmless s (.loop fault) := by
  unfold select at hstep
  unfold Harmless nextRead
  rw [hphase]
  split at hstep
  case isTrue htriggers =>
    cases hstep
    rw [readCert_tracked_iff]
    simp [htriggers, Files.get, IdentityFile.other]
  case isFalse htriggers =>
    split at hstep
    case h_1 ev channel hchannel =>
      cases hstep
      refine iff_of_true (take_tracked hs hchannel) ?_
      simp [htriggers, hchannel]
    case h_2 hchannel =>
      obtain ⟨d, hd, rfl⟩ := Option.map_eq_some_iff.1 hstep
      obtain ⟨hdeadline, hdue⟩ := Option.filter_eq_some_iff.1 hd
      have hnow : d ≤ s.now := of_decide_eq_true hdue
      rw [readCert_tracked_iff]
      simp [htriggers, hchannel, hdeadline, hnow, Files.get, IdentityFile.other]

/-- A move loses nothing exactly if it is harmless. -/
theorem step_tracked_iff {m : WatchMove} (hdeadline : NoDeadline s) (hs : w.Tracked s)
    (hstep : w.step m s = some s') : w.Tracked s' ↔ w.Harmless s m := by
  cases m with
  | swapData files events => exact swapData_tracked_iff hstep
  | notify => exact notify_tracked_iff hs hstep
  | write file bytes events => exact iff_of_true (write_tracked hstep) trivial
  | unrelated events => exact iff_of_true (unrelated_tracked hs hstep) trivial
  | tick d =>
    cases hstep
    exact iff_of_true hs trivial
  | forceRefresh =>
    cases hstep
    exact iff_of_true hs trivial
  | loop fault =>
    simp only [step] at hstep
    split at hstep
    case h_1 hook cert hphase =>
      cases hstep
      have hnone : s.pendingDeadline = none := hdeadline.resolve_left (by rw [hphase]; nofun)
      rw [readKey_tracked_iff hs hnone, Harmless, nextRead, hphase]
      simp [Files.get, IdentityFile.other]
    case h_2 hphase => exact select_tracked_iff hs hphase hstep

/-- The watcher starts with the identity that the resolver was built with. -/
def start (identity : Files) : WatchState := { disk := identity, read := identity }

/-- A run loses no rotation exactly if all its moves are harmless. -/
theorem watch_tracked_iff (w : MtlsFsWatcher) (identity : Files) {moves : List WatchMove}
    {s : WatchState} (hrun : Machine.play w.step moves (start identity) = some s) :
    Machine.Visits w.step w.Tracked moves (start identity) ↔
      Machine.Along w.step w.Harmless moves (start identity) :=
  Machine.visits_iff (fun hs hstep => step_noDeadline hs hstep)
    (fun hdeadline hs hstep => step_tracked_iff hdeadline hs hstep) hrun (.inl rfl)
    (tracked_iff.2 (.inl (not_stale_iff.2 ⟨rfl, fun _ => rfl⟩)))

/-! ## A rename and a swap -/

def sampleWatcher : MtlsFsWatcher where
  certPath := ["", "etc", "tls", "tls.crt"]
  keyPath := ["", "etc", "tls", "tls.key"]
  reloadMtlsIdentity _ _ := .ok ()

def firstIdentity : Files := { cert := some [1], key := some [1] }

/-- A new certificate is renamed onto the old one, and read after the debounce. -/
def renameRun : List WatchMove :=
  [.write .cert (some [2]) [⟨.modify, [["", "etc", "tls", "tls.tmp"]]⟩,
      ⟨.modify, [["", "etc", "tls", "tls.crt"]]⟩],
    .notify, .notify, .loop, .loop, .tick 500, .loop, .loop]

theorem rename_tracked :
    Machine.Visits sampleWatcher.step sampleWatcher.Tracked renameRun (start firstIdentity) := by
  refine (watch_tracked_iff sampleWatcher firstIdentity (s :=
    { now := 500, disk := { cert := some [2], key := some [1] },
      read := { cert := some [2], key := some [1] } }) rfl).2 ?_
  refine ⟨trivial, fun _ h => ?_⟩
  cases h
  refine ⟨.inl (by decide), fun _ h => ?_⟩
  cases h
  refine ⟨.inl (by decide), fun _ h => ?_⟩
  cases h
  refine ⟨fun file hfile => (by cases hfile), fun _ h => ?_⟩
  cases h
  refine ⟨fun file hfile => (by cases hfile), fun _ h => ?_⟩
  cases h
  refine ⟨trivial, fun _ h => ?_⟩
  cases h
  refine ⟨fun file hfile => ?_, fun _ h => ?_⟩
  · cases hfile
    exact .inl ⟨rfl, rfl⟩
  cases h
  refine ⟨fun file hfile => ?_, fun _ _ => trivial⟩
  cases hfile
  exact .inl ⟨rfl, rfl⟩

/-- Another version of the secret is linked in behind the names of the files. -/
def swapRun : List WatchMove :=
  [.swapData { cert := some [2], key := some [2] }
      [⟨.create, [["", "etc", "tls", "..data_tmp"]]⟩, ⟨.modify, [["", "etc", "tls", "..data"]]⟩,
        ⟨.remove, [["", "etc", "tls", "..2026_01"]]⟩],
    .notify, .notify, .notify, .loop, .loop, .loop]

/-- The loop waits for an event, and there is none. -/
theorem swap_lost :
    ∃ s, Machine.play sampleWatcher.step swapRun (start firstIdentity) = some s ∧ Stale s ∧
      ¬sampleWatcher.Pending s ∧ sampleWatcher.step .loop s = none := by
  refine ⟨{ disk := { cert := some [2], key := some [2] }, read := firstIdentity }, rfl,
    .inl (by decide), ?_, rfl⟩
  rintro (h | ⟨ev, hmem, -⟩)
  · cases h
  · cases hmem

end MtlsFsWatcher

end Tako.Auth
