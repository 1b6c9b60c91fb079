import Tako.Governance.Audit

/-!
# Concurrent calls of the audit log

Whatever the order in which calls of `record` take their steps, and wherever they are dropped, the
file is the lines of the attempts one after another, torn only where the writer has failed, and the
entries are read back from its bytes (`record_concurrent`).
-/

namespace Tako.Governance.AuditLog

open Async
open Interleaving (Config)
open Mcp (Serde SingleLine)
open Orchestrator (halfSerde)

variable {ι W : Type} {io : AuditIo W} {serde : Serde} {calls : ι → AuditCall} {i : ι}

/-! ## What the calls keep -/

/-- What an attempt has brought to the file, when it has not the lock any more. -/
structure Sound (io : AuditIo W) (serde : Serde) (calls : ι → AuditCall) (lock : Option ι)
    (a : AuditAttempt ι) : Prop where
  entry : ∃ w, a.entry = (calls a.caller).entry (io.now w).1
  started : a.bytes <+: a.entry.line serde
  whole : lock ≠ some a.caller → a.failed = false → a.bytes = a.entry.line serde

/-- The file is what was in it before and what the attempts have brought. -/
structure Kept (io : AuditIo W) (serde : Serde) (calls : ι → AuditCall) (file : List UInt8)
    (s : AuditCell ι W) : Prop where
  file : s.file = file ++ s.attempts.reverse.flatMap (·.bytes)
  callers : (s.attempts.map (·.caller)).Nodup
  sound : ∀ a ∈ s.attempts, Sound io serde calls s.lock a

/-- A call has made its attempt. -/
def Attempted (s : AuditCell ι W) (i : ι) : Prop := ∃ a ∈ s.attempts, a.caller = i

/-- A later state, whoever has made the steps to it. -/
structure Later (io : AuditIo W) (serde : Serde) (calls : ι → AuditCall) (file : List UInt8)
    (s s' : AuditCell ι W) : Prop where
  kept : Kept io serde calls file s → Kept io serde calls file s'
  appended : s.file <+: s'.file

/-- The world goes on, and the log is left as it is. -/
def Elsewhere (s s' : AuditCell ι W) : Prop := ∃ w, s' = { s with world := w }

/-- What the others do. -/
structure Others (io : AuditIo W) (serde : Serde) (calls : ι → AuditCall) (file : List UInt8)
    (i : ι) (s s' : AuditCell ι W) : Prop extends Later io serde calls file s s' where
  held : s.lock = some i → Elsewhere s s'
  attempted : Attempted s' i ↔ Attempted s i

/-- What a call does. -/
structure Own (io : AuditIo W) (serde : Serde) (calls : ι → AuditCall) (file : List UInt8)
    (i : ι) (s s' : AuditCell ι W) : Prop extends Later io serde calls file s s' where
  others : ∀ j ≠ i, Others io serde calls file j s s'

variable {file : List UInt8} {s t u : AuditCell ι W}

theorem Later.refl (s : AuditCell ι W) : Later io serde calls file s s := ⟨id, List.prefix_rfl⟩

theorem Later.trans (h : Later io serde calls file s t) (h' : Later io serde calls file t u) :
    Later io serde calls file s u :=
  ⟨h'.kept ∘ h.kept, h.appended.trans h'.appended⟩

theorem Others.refl (i : ι) (s : AuditCell ι W) : Others io serde calls file i s s :=
  ⟨.refl s, fun _ => ⟨s.world, rfl⟩, .rfl⟩

theorem Others.trans (h : Others io serde calls file i s t)
    (h' : Others io serde calls file i t u) : Others io serde calls file i s u where
  toLater := h.toLater.trans h'.toLater
  held hlock := by
    obtain ⟨w, rfl⟩ := h.held hlock
    exact h'.held hlock
  attempted := h'.attempted.trans h.attempted

theorem Own.refl (i : ι) (s : AuditCell ι W) : Own io serde calls file i s s :=
  ⟨.refl s, fun j _ => .refl j s⟩

theorem Own.trans (h : Own io serde calls file i s t) (h' : Own io serde calls file i t u) :
    Own io serde calls file i s u :=
  ⟨h.toLater.trans h'.toLater, fun j hj => (h.others j hj).trans (h'.others j hj)⟩

theorem elsewhere_later (h : Elsewhere s t) : Later io serde calls file s t := by
  obtain ⟨w, rfl⟩ := h
  exact ⟨fun hs => ⟨hs.file, hs.callers, hs.sound⟩, List.prefix_rfl⟩

theorem elsewhere_others (h : Elsewhere s t) : Others io serde calls file i s t := by
  refine ⟨elsewhere_later h, fun _ => h, ?_⟩
  obtain ⟨w, rfl⟩ := h
  exact .rfl

theorem interference : Interference (ι := ι) Elsewhere (Others io serde calls file)
    (Own io serde calls file) (Later io serde calls file) where
  rely_refl := Others.refl
  rely_trans _ := Others.trans
  rely_of_guarantee hne h := h.others _ hne
  rely_of_env _ := elsewhere_others
  refl := Later.refl
  trans := Later.trans
  of_guarantee _ _ _ h := h.toLater
  of_env := elsewhere_later
/-! ## Steps of a call -/

theorem now_own (s : AuditCell ι W) : Own io serde calls file i s (AuditCell.now io s).2 :=
  ⟨elsewhere_later ⟨_, rfl⟩, fun _ _ => elsewhere_others ⟨_, rfl⟩⟩

theorem acquire_own {entry : AuditEntry} (hentry : ∃ w, entry = (calls i).entry (io.now w).1)
    (hfree : s.free = true) (hfirst : ¬Attempted s i) :
    Own io serde calls file i s (s.acquire i entry) := by
  have hnone : s.lock = none := Option.isNone_iff_eq_none.1 hfree
  have hlater : Later io serde calls file s (s.acquire i entry) := by
    refine ⟨fun hs => ⟨?_, ?_, ?_⟩, List.prefix_rfl⟩
    · simpa [AuditCell.acquire] using hs.file
    · refine List.nodup_cons.2 ⟨fun hmem => ?_, hs.callers⟩
      obtain ⟨a, ha, hcaller⟩ := List.mem_map.1 hmem
      exact hfirst ⟨a, ha, hcaller⟩
    · intro a ha
      rcases List.mem_cons.1 ha with rfl | ha
      · exact ⟨hentry, List.nil_prefix, fun hne _ => absurd rfl hne⟩
      · have hsound := hs.sound a ha
        exact ⟨hsound.entry, hsound.started, fun _ => hsound.whole (by simp [hnone])⟩
  refine ⟨hlater, fun j hj => ⟨hlater, fun hlock => ?_, ?_⟩⟩
  · rw [hnone] at hlock
    cases hlock
  · constructor
    · rintro ⟨a, ha, rfl⟩
      rcases List.mem_cons.1 ha with rfl | ha
      · exact absurd rfl hj
      · exact ⟨a, ha, rfl⟩
    · rintro ⟨a, ha, rfl⟩
      exact ⟨a, List.mem_cons_of_mem _ ha, rfl⟩

/-- The call has the lock, and what is left of its line is still to be written. -/
structure Writing (io : AuditIo W) (serde : Serde) (calls : ι → AuditCall) (file : List UInt8)
    (i : ι) (rest : List UInt8) (s : AuditCell ι W) : Prop where
  kept : Kept io serde calls file s
  lock : s.lock = some i
  newest : ∃ a as, s.attempts = a :: as ∧ a.caller = i ∧ a.failed = false ∧
    a.bytes ++ rest = a.entry.line serde

/-- The call has the lock, and is through with its line. -/
structure Written (io : AuditIo W) (serde : Serde) (calls : ι → AuditCall) (file : List UInt8)
    (i : ι) (s : AuditCell ι W) : Prop where
  kept : Kept io serde calls file s
  lock : s.lock = some i
  newest : ∃ a as, s.attempts = a :: as ∧ a.caller = i ∧
    (a.failed = false → a.bytes = a.entry.line serde)

theorem Writing.others {rest : List UInt8} (h : Writing io serde calls file i rest s)
    (hs : Others io serde calls file i s t) : Writing io serde calls file i rest t := by
  obtain ⟨w, rfl⟩ := hs.held h.lock
  exact ⟨hs.kept h.kept, h.lock, h.newest⟩

theorem Written.others (h : Written io serde calls file i s)
    (hs : Others io serde calls file i s t) : Written io serde calls file i t := by
  obtain ⟨w, rfl⟩ := hs.held h.lock
  exact ⟨hs.kept h.kept, h.lock, h.newest⟩

/-- A write continues the newest attempt. -/
theorem write_own {rest : List UInt8} (h : Writing io serde calls file i rest s) :
    Own io serde calls file i s (s.write io rest).2 := by
  obtain ⟨a, as, hattempts, hcaller, -, hline⟩ := h.newest
  have hlater : Later io serde calls file s (s.write io rest).2 := by
    refine ⟨fun hs => ⟨?_, ?_, ?_⟩, List.prefix_append ..⟩
    · simp [AuditCell.write, hs.file, hattempts]
    · simpa [AuditCell.write, hattempts] using hs.callers
    · intro b hb
      rw [AuditCell.write, hattempts] at hb
      rcases List.mem_cons.1 hb with rfl | hb
      · have hsound := hs.sound a (hattempts ▸ List.mem_cons_self)
        refine ⟨hsound.entry, ?_, fun hne _ => absurd (hcaller ▸ h.lock) hne⟩
        rw [← hline]
        exact List.prefix_append_right_inj _ |>.2 (List.take_prefix ..)
      · exact hs.sound b (hattempts ▸ List.mem_cons_of_mem _ hb)
  refine ⟨hlater, fun j hj => ⟨hlater, fun hlock => ?_, ?_⟩⟩
  · rw [h.lock] at hlock
    exact absurd (Option.some.inj hlock).symm hj
  · simp [Attempted, AuditCell.write, hattempts]

theorem write_spec {rest : List UInt8} (h : Writing io serde calls file i rest s) :
    (∀ n, (s.write io rest).1 = .ok (n + 1) →
      Writing io serde calls file i (rest.drop (n + 1)) (s.write io rest).2) ∧
    ((∀ n, (s.write io rest).1 ≠ .ok (n + 1)) →
      Written io serde calls file i (s.write io rest).2) := by
  obtain ⟨a, as, hattempts, hcaller, -, hline⟩ := h.newest
  have hkept := (write_own h).kept h.kept
  have hnewest (n : Nat) (hn : AuditCell.taken (s.write io rest).1 = n) :
      (s.write io rest).2.attempts =
        ⟨a.caller, a.entry, a.bytes ++ rest.take n, n == 0⟩ :: as := by
    rw [← hn, AuditCell.write, hattempts]
    rfl
  constructor
  · intro n hn
    have htaken : AuditCell.taken (s.write io rest).1 = n + 1 := by rw [hn]; rfl
    refine ⟨hkept, h.lock, _, as, hnewest _ htaken, hcaller, rfl, ?_⟩
    rw [List.append_assoc, List.take_append_drop, hline]
  · intro hstop
    have htaken : AuditCell.taken (s.write io rest).1 = 0 := by
      cases hr : (s.write io rest).1 with
      | error e => rfl
      | ok n =>
        cases n with
        | zero => rfl
        | succ n => exact absurd hr (hstop n)
    refine ⟨hkept, h.lock, _, as, hnewest _ htaken, hcaller, fun hok => ?_⟩
    cases hok

theorem release_own (h : Written io serde calls file i s) :
    Own io serde calls file i s s.release := by
  obtain ⟨a, as, hattempts, hcaller, hwhole⟩ := h.newest
  have hlater : Later io serde calls file s s.release := by
    refine ⟨fun hs => ⟨hs.file, hs.callers, fun b hb => ?_⟩, List.prefix_rfl⟩
    have hsound := hs.sound b hb
    refine ⟨hsound.entry, hsound.started, fun _ hok => ?_⟩
    change b ∈ s.attempts at hb
    by_cases hmine : b.caller = i
    · -- there is one attempt of the call
      have hba : b = a := by
        have hcallers := hs.callers
        rw [hattempts] at hb hcallers
        rcases List.mem_cons.1 hb with rfl | hb
        · rfl
        · have hmem := List.mem_map_of_mem (f := (·.caller)) hb
          rw [hmine, ← hcaller] at hmem
          exact absurd hmem (List.nodup_cons.1 hcallers).1
      subst hba
      exact hwhole hok
    · refine hsound.whole (fun hlock => hmine ?_) hok
      rw [h.lock] at hlock
      exact (Option.some.inj hlock).symm
  refine ⟨hlater, fun j hj => ⟨hlater, fun hlock => ?_, .rfl⟩⟩
  rw [h.lock] at hlock
  exact absurd (Option.some.inj hlock).symm hj

theorem Written.attempted (h : Written io serde calls file i s) : Attempted s i := by
  obtain ⟨a, as, hattempts, hcaller, -⟩ := h.newest
  exact ⟨a, hattempts ▸ List.mem_cons_self, hcaller⟩

/-! ## Runs of a call -/

theorem Writing.written (h : Writing io serde calls file i [] s) :
    Written io serde calls file i s := by
  obtain ⟨a, as, hattempts, hcaller, -, hline⟩ := h.newest
  exact ⟨h.kept, h.lock, a, as, hattempts, hcaller, fun _ => by simpa using hline⟩

/-- The line is written, up to where the writer fails. -/
theorem writeLine_safe {line : List UInt8} (h : Writing io serde calls file i line s) :
    (Io.writeAll (AuditCell.write io) line.length line).Safe (Others io serde calls file i)
      (Own io serde calls file i) (Own io serde calls file i)
      (fun _ => Written io serde calls file i) s := by
  refine (Io.writeAll_safe (Writing io serde calls file i) (Written io serde calls file i)
    (Others.refl i) (Own.refl i) Writing.others Written.others
    (fun _ hrest => ⟨write_own hrest, write_spec hrest⟩) _ line le_rfl h).weaken ?_
  intro r t ht
  cases r with
  | ok _ => exact ht.written
  | error _ => exact ht

theorem record_safe (hs : Kept io serde calls file s) (hfirst : ¬Attempted s i) :
    (record io serde i (calls i)).Safe (Others io serde calls file i) (Own io serde calls file i)
      (Own io serde calls file i) (fun _ t => Attempted t i) s := by
  refine .bind (P := fun ts t => (∃ w, ts = (io.now w).1) ∧ Kept io serde calls file t ∧
    ¬Attempted t i) (Others.refl i) ?_ fun ts t ht => ?_
  · refine .atomically fun t ht => ⟨.refl i t, now_own t, fun u hu => ⟨⟨t.world, rfl⟩, ?_, ?_⟩⟩
    · exact hu.kept ((now_own (i := i) t).kept (ht.kept hs))
    · rw [hu.attempted]
      exact fun hmade => hfirst (ht.attempted.1 hmade)
  · obtain ⟨⟨w, rfl⟩, hkept, hfirst⟩ := ht
    refine .bind (P := fun _ t => Attempted t i) (Others.refl i) ?_ fun _ u hu =>
      .pure fun v hv => hv.attempted.2 hu
    refine .acquiring fun u hu => ⟨.refl i u, fun hfree => ?_⟩
    have hown : Own io serde calls file i u (u.acquire i ((calls i).entry (io.now w).1)) :=
      acquire_own ⟨w, rfl⟩ hfree fun hmade => hfirst (hu.attempted.1 hmade)
    have hstart : Writing io serde calls file i (((calls i).entry (io.now w).1).line serde)
        (u.acquire i ((calls i).entry (io.now w).1)) :=
      ⟨hown.kept (hu.kept hkept), rfl, _, _, rfl, rfl, rfl, rfl⟩
    have hwrites := Safe.unbroken (Io.writeAll_prompt _ _ _) (Others.refl i) Others.trans
      (Own.refl i) Own.trans (writeLine_safe hstart)
    refine ⟨hown, .holding hwrites ?_ ?_⟩
    · rintro v v' ⟨hv, -, hwritten⟩
      exact hv.trans (release_own hwritten)
    · intro _ v hv
      exact ⟨release_own hv, release_own hv, fun v' hv' => hv'.attempted.2 hv.attempted⟩

/-! ## Runs of all calls -/

/-- The bytes of attempts that have gone well are read in one way. -/
theorem readBack {attempts : List (AuditAttempt ι)}
    (h : ∀ a ∈ attempts, a.bytes = a.entry.line serde) {es : List AuditEntry}
    (hes : es.flatMap (AuditEntry.line serde) = attempts.flatMap (·.bytes)) :
    es = attempts.map (·.entry) := by
  refine AuditEntry.lines_injective serde ?_
  rw [hes, List.flatMap_map]
  exact List.flatMap_congr h

variable [DecidableEq ι] {c : Config ι (AuditCell ι W) (Option (Async (AuditCell ι W) Unit))}

/-- In any run of calls of `record`, some of which may be dropped, the file is what was in it and
the attempts' bytes. -/
theorem record_concurrent (io : AuditIo W) (serde : Serde) (calls : ι → AuditCall)
    (file : List UInt8) (w : W)
    (h : Run Elsewhere ⟨⟨w, file, none, []⟩, fun i => some (record io serde i (calls i))⟩ c) :
    c.shared.file = file ++ c.shared.attempts.reverse.flatMap (·.bytes) ∧
      (c.shared.attempts.map (·.caller)).Nodup ∧
      (∀ a ∈ c.shared.attempts, (∃ w, a.entry = (calls a.caller).entry (io.now w).1) ∧
        SingleLine (a.entry.text serde) ∧ a.bytes <+: a.entry.line serde ∧
        (c.shared.lock ≠ some a.caller → a.failed = false → a.bytes = a.entry.line serde)) ∧
      (∀ i, c.locals i = some (.done ()) → ∃ a ∈ c.shared.attempts, a.caller = i) ∧
      (c.shared.lock = none → (∀ a ∈ c.shared.attempts, a.failed = false) →
        ∀ es : List AuditEntry, file ++ es.flatMap (AuditEntry.line serde) = c.shared.file →
          es = c.shared.attempts.reverse.map (·.entry)) ∧
      ∀ d, Run Elsewhere c d → c.shared.file <+: d.shared.file := by
  have hF : Interference Elsewhere (Others io serde calls file) (Own io serde calls file)
    (Later io serde calls file) := interference
  have hstart : Kept io serde calls file (⟨w, file, none, []⟩ : AuditCell ι W) :=
    ⟨(List.append_nil file).symm, List.nodup_nil, nofun⟩
  have hsafe : AllSafe (Others io serde calls file) (Own io serde calls file)
      (fun i _ t => Attempted t i)
      ⟨⟨w, file, none, []⟩, fun i => some (record io serde i (calls i))⟩ := by
    intro i x hx
    obtain rfl := Option.some.inj hx
    exact record_safe hstart fun ⟨a, ha, _⟩ => nomatch ha
  obtain ⟨hall, hlater⟩ := h.safe hF hsafe
  have hkept := hlater.kept hstart
  refine ⟨hkept.file, hkept.callers, ?_, ?_, ?_, ?_⟩
  · intro a ha
    have hsound := hkept.sound a ha
    exact ⟨hsound.entry, AuditEntry.singleLine_text serde a.entry, hsound.started, hsound.whole⟩
  · intro i hi
    exact hall.result hF hi
  · intro hfree hok es hes
    rw [hkept.file] at hes
    refine readBack (fun a ha => ?_) (List.append_cancel_left hes)
    have hmem := List.mem_reverse.1 ha
    exact (hkept.sound a hmem).whole (by simp [hfree]) (hok a hmem)
  · intro d hd
    exact (hd.safe hF hall).2.appended

def sampleCall (allowed : Bool) : AuditCall where
  principal := { tenantId := "t", userId := "u" }
  ctx := { stage := .preChat, model := "m", messagesHash := "", tools := [] }
  decision := if allowed then .allow else .deny "no"

def sampleTime (n : Nat) : String × Nat := (if n = 0 then "09:00" else "09:01", n + 1)

/-- A call after another one, in memory. -/
theorem record_concurrent_two :
    ∃ c, Run Elsewhere ⟨⟨0, [], none, []⟩,
        fun i => some (record (.inMemory sampleTime) halfSerde i (sampleCall i))⟩ c ∧
      c.shared.file ≠ [] ∧
      ∀ es : List AuditEntry, [] ++ es.flatMap (AuditEntry.line halfSerde) = c.shared.file →
        es = [(sampleCall false).entry "09:00", (sampleCall true).entry "09:01"] := by
  have first : Run Elsewhere _ _ := Run.exec (i := false) (c := ⟨⟨0, [], none, []⟩,
    fun i => some (record (.inMemory sampleTime) halfSerde i (sampleCall i))⟩) rfl
    (record_inMemory sampleTime halfSerde false (sampleCall false) rfl)
  have both := first.trans
    (Run.exec (i := true) rfl (record_inMemory sampleTime halfSerde true (sampleCall true) rfl))
  refine ⟨_, both, ?_, ?_⟩
  · simp [AuditEntry.line_ne_nil]
  · exact (record_concurrent _ _ _ _ _ both).2.2.2.2.1 rfl (by simp)

end Tako.Governance.AuditLog
