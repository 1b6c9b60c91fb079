import Tako.Mcp.JsonRpc
import Tako.Theory.Machine

/-!
# The notifications of the streamable HTTP transport

The reader of `StreamableHttpTransport` (`tako-mcp/src/transport/streamable_http.rs`): the first
`notifications` spawns it, and it broadcasts what the server sends on its event stream. `close` wakes
who waits for `cancel` at that moment. So it is final where the reader is asleep in its `select`, and
else only if the stream is over or never begins (`close_final_iff`).

The reader goes from one `await` to the next, and `close` may run on another thread between any two
of its steps.
-/

namespace Tako.Mcp.StreamableHttp

open Machine

/-- What `events.next` yields for an item of the stream. -/
inductive Item where
  | event (data : String)
  | error (e : String)
  | finish

/-- The reader would go on after the item. -/
def Item.isEvent : Item → Bool
  | .event _ => true
  | _ => false

/-- Where the reader is. `absent` means that `sse_started` is not set. -/
inductive Reader where
  | absent
  | spawned
  | locking
  | connecting
  | rejected
  | looping
  /-- Both futures of the `select` exist, and `notified` is polled next. -/
  | waiting
  /-- `notified` was pending, and `events.next` is polled. -/
  | listening
  | handling (i : Nat) (data : String)
  | exited

/-- `Inner`, with the reader. The server sent `served`, of which the reader took `taken`; a broadcast
stands with the number of its item. `cancelled` tells that the `notified` of the `select` is woken. -/
structure State where
  reader : Reader := .absent
  cancelled : Bool := false
  served : List Item := []
  taken : Nat := 0
  broadcast : List (Nat × Json) := []

/-- The payload that an event is broadcast as. A response is not. -/
def payload (serde : Serde) (data : String) : Option Json :=
  if (Str.trim data).isEmpty then none
  else
    match serde.response data with
    | none => none
    | some r => if r.id.isSome then none else r.method.map r.notified

/-- `StatusCode::is_success`. -/
def isSuccess (status : Nat) : Bool := 200 ≤ status && status < 300

/-- The environment's part in a step of the reader. -/
inductive Progress where
  | go
  | failed
  | status (code : Nat)
  | pending
  | ready

namespace State

/-- `ensure_sse_reader`. -/
def notifications (s : State) : State :=
  match s.reader with
  | .absent => { s with reader := .spawned }
  | _ => s

/-- `notify_waiters` leaves no permit. -/
def close (s : State) : State :=
  match s.reader with
  | .waiting | .listening => { s with cancelled := true }
  | _ => s

/-- The server sends an item on the stream that the reader asked for. -/
def serve (item : Item) (s : State) : Option State :=
  match s.reader with
  | .absent | .spawned | .locking => none
  | _ => if s.served.all Item.isEvent then some { s with served := s.served ++ [item] } else none

/-- The reader takes the next item. -/
def take (s : State) : Option State :=
  match s.served[s.taken]? with
  | none => none
  | some (.event data) => some { s with taken := s.taken + 1, reader := .handling s.taken data }
  | some _ => some { s with taken := s.taken + 1, reader := .exited }

def handle (serde : Serde) (i : Nat) (data : String) (s : State) : State :=
  { s with
    reader := .looping
    broadcast := s.broadcast ++ ((payload serde data).map (i, ·)).toList }

def advance (serde : Serde) (s : State) (how : Progress) : Option State :=
  match s.reader, how with
  | .spawned, .go => some { s with reader := .locking }
  | .locking, .go => some { s with reader := .connecting }
  | .connecting, .failed => some { s with reader := .exited }
  | .connecting, .status code =>
    some { s with reader := if isSuccess code then .looping else .rejected }
  | .rejected, .go => some { s with reader := .exited }
  | .looping, .go => some { s with reader := .waiting, cancelled := false }
  | .waiting, .go => some { s with reader := if s.cancelled then .exited else .listening }
  | .listening, .pending => some { s with reader := .waiting }
  | .listening, .ready => s.take
  | .handling i data, .go => some (s.handle serde i data)
  | _, _ => none

end State

inductive Move where
  | notifications
  | close
  | serve (item : Item)
  | advance (how : Progress)

def move (serde : Serde) : Move → State → Option State
  | .notifications, s => some s.notifications
  | .close, s => some s.close
  | .serve item, s => s.serve item
  | .advance how, s => s.advance serde how

/-- Nothing that the server sends after a `close` in this state is ever broadcast. -/
def Final (serde : Serde) (s : State) : Prop :=
  ∀ ms s', play (move serde) (.close :: ms) s = some s' → ∀ p ∈ s'.broadcast, p.1 < s.served.length

/-- The reader is at the `notified` of its `select`, or reads nothing more. -/
def Reader.IsDone : Reader → Prop
  | .rejected | .waiting | .exited => True
  | _ => False

/-- The stream has come to its end. -/
def State.isOver (s : State) : Bool := !s.served.all Item.isEvent

variable {serde : Serde} {s s' : State}

/-! ## What a move does -/

/-- A move, and where it is possible. -/
inductive Moved (serde : Serde) (s : State) : Move → State → Prop where
  | notifications : Moved serde s .notifications s.notifications
  | close : Moved serde s .close s.close
  | served (h : s.isOver = false) : Moved serde s (.serve item) { s with served := s.served ++ [item] }
  | locks (h : s.reader = .spawned) : Moved serde s (.advance .go) { s with reader := .locking }
  | connects (h : s.reader = .locking) : Moved serde s (.advance .go) { s with reader := .connecting }
  | failed (h : s.reader = .connecting) :
    Moved serde s (.advance .failed) { s with reader := .exited }
  | answered (h : s.reader = .connecting) : Moved serde s (.advance (.status code))
    { s with reader := if isSuccess code then .looping else .rejected }
  | gaveUp (h : s.reader = .rejected) : Moved serde s (.advance .go) { s with reader := .exited }
  | selects (h : s.reader = .looping) :
    Moved serde s (.advance .go) { s with reader := .waiting, cancelled := false }
  | woke (h : s.reader = .waiting) : Moved serde s (.advance .go)
    { s with reader := if s.cancelled then .exited else .listening }
  | slept (h : s.reader = .listening) :
    Moved serde s (.advance .pending) { s with reader := .waiting }
  | took (h : s.reader = .listening) (hitem : s.served[s.taken]? = some (.event data)) :
    Moved serde s (.advance .ready)
      { s with taken := s.taken + 1, reader := .handling s.taken data }
  | ended (h : s.reader = .listening) (hlt : s.taken < s.served.length) :
    Moved serde s (.advance .ready) { s with taken := s.taken + 1, reader := .exited }
  | handled (h : s.reader = .handling i data) :
    Moved serde s (.advance .go) (s.handle serde i data)

theorem moved_of_serve {item : Item} (h : s.serve item = some s') :
    Moved serde s (.serve item) s' := by
  unfold State.serve at h
  split at h
  · cases h
  · cases h
  · cases h
  · split at h
    · next hall =>
      cases h
      exact .served (congrArg (!·) hall)
    · cases h

theorem moved_of_take (hphase : s.reader = .listening) (h : s.take = some s') :
    Moved serde s (.advance .ready) s' := by
  unfold State.take at h
  split at h
  · cases h
  · next hitem =>
    cases h
    exact .took hphase hitem
  · next hitem =>
    cases h
    exact .ended hphase (List.getElem?_eq_some_iff.1 hitem).1

theorem moved_of_advance {how : Progress} (h : s.advance serde how = some s') :
    Moved serde s (.advance how) s' := by
  unfold State.advance at h
  split at h
  case h_9 hphase => exact moved_of_take hphase h
  case h_11 => cases h
  all_goals
    next hphase =>
    cases h
    first
    | exact .locks hphase
    | exact .connects hphase
    | exact .failed hphase
    | exact .answered hphase
    | exact .gaveUp hphase
    | exact .selects hphase
    | exact .woke hphase
    | exact .slept hphase
    | exact .handled hphase

theorem moved_of_move {m : Move} (h : move serde m s = some s') : Moved serde s m s' := by
  cases m with
  | notifications =>
    cases h
    exact .notifications
  | close =>
    cases h
    exact .close
  | serve item => exact moved_of_serve h
  | advance how => exact moved_of_advance h

/-! ## What holds of every reader -/

/-- Only items that the reader took are broadcast. -/
structure Sane (s : State) : Prop where
  taken : s.taken ≤ s.served.length
  handling : ∀ i data, s.reader = .handling i data → i < s.taken
  broadcast : ∀ p ∈ s.broadcast, p.1 < s.taken

/-- The reader goes elsewhere, without an item. -/
theorem Sane.goes (h : Sane s) (hserved : s'.served = s.served) (htaken : s'.taken = s.taken)
    (hbroadcast : s'.broadcast = s.broadcast)
    (hreader : ∀ i data, s'.reader = .handling i data → s.reader = .handling i data) : Sane s' where
  taken := by rw [hserved, htaken]; exact h.taken
  handling i data hi := htaken ▸ h.handling i data (hreader i data hi)
  broadcast := by rw [hbroadcast, htaken]; exact h.broadcast

theorem State.notifications_same (s : State) : s.notifications.served = s.served ∧
    s.notifications.taken = s.taken ∧ s.notifications.broadcast = s.broadcast := by
  unfold State.notifications
  split <;> exact ⟨rfl, rfl, rfl⟩

theorem State.close_same (s : State) : s.close.reader = s.reader ∧ s.close.served = s.served ∧
    s.close.taken = s.taken ∧ s.close.broadcast = s.broadcast := by
  unfold State.close
  split <;> exact ⟨rfl, rfl, rfl, rfl⟩

theorem Sane.moved (h : Sane s) (hm : Moved serde s m s') : Sane s' := by
  cases hm with
  | notifications =>
    obtain ⟨hserved, htaken, hbroadcast⟩ := s.notifications_same
    refine h.goes hserved htaken hbroadcast fun i data => ?_
    unfold State.notifications
    split
    · exact (nomatch ·)
    · exact id
  | close =>
    obtain ⟨hreader, hserved, htaken, hbroadcast⟩ := s.close_same
    exact h.goes hserved htaken hbroadcast fun i data => hreader ▸ id
  | served =>
    refine ⟨Nat.le_trans h.taken ?_, h.handling, h.broadcast⟩
    rw [List.length_append]
    exact Nat.le_add_right _ _
  | took _ hitem =>
    refine ⟨(List.getElem?_eq_some_iff.1 hitem).1, fun i data hi => ?_, fun p hp => ?_⟩
    · cases hi
      exact Nat.lt_succ_self _
    · exact Nat.lt_succ_of_lt (h.broadcast p hp)
  | ended _ hlt =>
    exact ⟨hlt, fun i data => (nomatch ·), fun p hp => Nat.lt_succ_of_lt (h.broadcast p hp)⟩
  | @handled i data hphase =>
    refine ⟨h.taken, fun i data => (nomatch ·), fun p hp => ?_⟩
    rcases List.mem_append.1 hp with hp | hp
    · exact h.broadcast p hp
    · obtain ⟨v, -, rfl⟩ := Option.map_eq_some_iff.1 (Option.mem_toList.1 hp)
      exact h.handling i data hphase
  | answered | woke =>
    refine h.goes rfl rfl rfl fun i data => ?_
    dsimp only
    split <;> exact (nomatch ·)
  | locks | connects | failed | gaveUp | selects | slept =>
    exact h.goes rfl rfl rfl fun i data => (nomatch ·)

theorem sane_start : Sane {} := ⟨Nat.le_refl _, fun _ _ => (nomatch ·), fun _ => (nomatch ·)⟩

theorem sane_play (h : play (move serde) ms s = some s') (hs : Sane s) : Sane s' :=
  play_invariant (fun hs hm => hs.moved (moved_of_move hm)) h hs

/-! ## Where a close is final -/

/-- The reader takes nothing any more. -/
def Quiet (s : State) : Prop :=
  s.reader = .rejected ∨ s.reader = .exited ∨ s.reader = .waiting ∧ s.cancelled = true

theorem Quiet.moved (h : Quiet s) (hm : Moved serde s m s') :
    Quiet s' ∧ s'.broadcast = s.broadcast := by
  cases hm with
  | notifications =>
    refine ⟨?_, s.notifications_same.2.2⟩
    unfold State.notifications
    split
    · next hreader => rcases h with h | h | ⟨h, -⟩ <;> cases hreader.symm.trans h
    · exact h
  | close =>
    refine ⟨?_, s.close_same.2.2.2⟩
    unfold State.close
    split
    · next hreader => exact .inr (.inr ⟨hreader, rfl⟩)
    · next hreader => rcases h with h | h | ⟨h, -⟩ <;> cases hreader.symm.trans h
    · exact h
  | served => exact ⟨h, rfl⟩
  | gaveUp => exact ⟨.inr (.inl rfl), rfl⟩
  | woke hreader =>
    rcases h with h | h | ⟨-, h⟩
    · cases hreader.symm.trans h
    · cases hreader.symm.trans h
    · exact ⟨.inr (.inl (if_pos h)), rfl⟩
  | locks hreader | connects hreader | failed hreader | answered hreader | selects hreader
  | slept hreader | took hreader | ended hreader | handled hreader =>
    rcases h with h | h | ⟨h, -⟩ <;> cases hreader.symm.trans h

theorem Quiet.play (h : Quiet s) (hplay : play (move serde) ms s = some s') :
    s'.broadcast = s.broadcast :=
  (play_invariant (I := fun t => Quiet t ∧ t.broadcast = s.broadcast)
    (fun ht hm => (ht.1.moved (moved_of_move hm)).imp_right fun heq => heq.trans ht.2) hplay
    ⟨h, rfl⟩).2

theorem quiet_close (h : s.reader.IsDone) : Quiet s.close := by
  unfold State.close
  split
  · next hreader => exact .inr (.inr ⟨hreader, rfl⟩)
  · next hreader =>
    rw [hreader] at h
    exact h.elim
  · next hwaiting _ =>
    cases hreader : s.reader with
    | rejected => exact .inl hreader
    | exited => exact .inr (.inl hreader)
    | waiting => exact absurd hreader hwaiting
    | _ =>
      rw [hreader] at h
      exact h.elim

theorem over_moved (h : s.isOver = true) (hm : Moved serde s m s') : s'.served = s.served := by
  cases hm with
  | notifications => exact s.notifications_same.1
  | close => exact s.close_same.2.1
  | served hopen => cases h.symm.trans hopen
  | _ => rfl

theorem over_play (h : s.isOver = true) (hplay : play (move serde) ms s = some s') :
    s'.served = s.served :=
  play_invariant (I := fun t => t.served = s.served)
    (fun ht hm => (over_moved (by unfold State.isOver; rw [ht]; exact h) (moved_of_move hm)).trans ht)
    hplay rfl

theorem final_of_done (hsane : Sane s) (h : s.reader.IsDone) : Final serde s := by
  intro ms s' hplay p hp
  obtain ⟨t, ht, hplay⟩ := play_cons.1 hplay
  cases ht
  rw [(quiet_close h).play hplay, s.close_same.2.2.2] at hp
  exact Nat.lt_of_lt_of_le (hsane.broadcast p hp) hsane.taken

theorem final_of_over (hsane : Sane s) (h : s.isOver = true) : Final serde s := by
  intro ms s' hplay p hp
  have hsane' := sane_play hplay hsane
  exact over_play h hplay ▸ Nat.lt_of_lt_of_le (hsane'.broadcast p hp) hsane'.taken

/-! ## Where it is not -/

/-- The reader can come to broadcast an item that is not among the first `n`. -/
def Late (serde : Serde) (n : Nat) (s : State) : Prop :=
  ∃ ms s', play (move serde) ms s = some s' ∧ ∃ p ∈ s'.broadcast, n ≤ p.1

theorem late_of_move (hm : move serde m s = some s') (h : Late serde n s') : Late serde n s := by
  obtain ⟨ms, t, hplay, hlate⟩ := h
  exact ⟨m :: ms, t, play_cons.2 ⟨s', hm, hplay⟩, hlate⟩

theorem move_take (hreader : s.reader = .listening)
    (hitem : s.served[s.taken]? = some (.event data)) : move serde (.advance .ready) s =
      some { s with taken := s.taken + 1, reader := .handling s.taken data } := by
  change s.advance serde .ready = _
  unfold State.advance State.take
  rw [hreader, hitem]

/-- Before the end every item is an event. -/
theorem event_of_not_over (h : s.isOver = false) (hk : k < s.served.length) :
    ∃ data, s.served[k]? = some (.event data) := by
  have hall : s.served.all Item.isEvent = true := by simpa [State.isOver] using h
  have hitem := List.all_eq_true.1 hall _ (List.getElem_mem hk)
  rw [List.getElem?_eq_getElem hk]
  cases hcase : s.served[k] with
  | event data => exact ⟨data, rfl⟩
  | error e =>
    rw [hcase] at hitem
    cases hitem
  | finish =>
    rw [hcase] at hitem
    cases hitem

/-- The reader reads up to a notification. -/
theorem late_listening (hreader : s.reader = .listening) (hopen : s.isOver = false)
    (hitem : s.served[k]? = some (.event note)) (hnote : payload serde note = some v) (hn : n ≤ k)
    (htaken : s.taken ≤ k) : Late serde n s := by
  have hlength := (List.getElem?_eq_some_iff.1 hitem).1
  induction hd : k - s.taken generalizing s with
  | zero =>
    obtain rfl : s.taken = k := by omega
    refine late_of_move (move_take hreader hitem) ⟨[.advance .go], _, rfl, (s.taken, v), ?_, hn⟩
    simp [State.handle, hnote]
  | succ d ih =>
    obtain ⟨data, hdata⟩ := event_of_not_over hopen (Nat.lt_of_le_of_lt htaken hlength)
    -- the event is handled, and the next `select` begins anew
    refine late_of_move (move_take hreader hdata) (late_of_move (m := .advance .go) rfl ?_)
    refine late_of_move (m := .advance .go) rfl (late_of_move (m := .advance .go) rfl ?_)
    refine ih rfl hopen hitem ?_ hlength ?_
    · dsimp only [State.handle]
      omega
    · dsimp only [State.handle]
      omega

/-- The server sends a notification. -/
theorem late_serve (hreader : s.reader = .looping ∨ s.reader = .listening)
    (hopen : s.isOver = false) (hnote : payload serde note = some v) (hn : n ≤ s.served.length)
    (htaken : s.taken ≤ s.served.length) : Late serde n s := by
  have hserve : move serde (.serve (.event note)) s =
      some { s with served := s.served ++ [.event note] } := by
    have hall : s.served.all Item.isEvent = true := by simpa [State.isOver] using hopen
    change s.serve (.event note) = _
    unfold State.serve
    rcases hreader with hreader | hreader <;> rw [hreader] <;> exact if_pos hall
  refine late_of_move hserve ?_
  have hopen' : State.isOver { s with served := s.served ++ [.event note] } = false := by
    rw [State.isOver] at hopen ⊢
    rw [List.all_append, Bool.not_and, hopen]
    rfl
  have hitem : (s.served ++ [Item.event note])[s.served.length]? = some (.event note) :=
    List.getElem?_concat_length
  rcases hreader with hreader | hreader
  · have hselect : move serde (.advance .go) { s with served := s.served ++ [.event note] } = some
        { s with served := s.served ++ [.event note], reader := .waiting, cancelled := false } := by
      change State.advance serde _ .go = _
      unfold State.advance
      rw [hreader]
    refine late_of_move hselect (late_of_move (m := .advance .go) rfl ?_)
    exact late_listening rfl hopen' hitem hnote hn htaken
  · exact late_listening hreader hopen' hitem hnote hn htaken

/-- A reader that is neither asleep nor done comes to broadcast a notification. -/
theorem late_of_not_done (hdone : ¬s.reader.IsDone) (hopen : s.isOver = false)
    (hnote : payload serde note = some v) (hn : n ≤ s.served.length)
    (htaken : s.taken ≤ s.served.length) : Late serde n s := by
  have hlooping : Late serde n { s with reader := .looping } :=
    late_serve (.inl rfl) hopen hnote hn htaken
  have hconnecting : Late serde n { s with reader := .connecting } :=
    late_of_move (m := .advance (.status 200)) rfl hlooping
  have hlocking : Late serde n { s with reader := .locking } :=
    late_of_move (m := .advance .go) rfl hconnecting
  have hspawned : Late serde n { s with reader := .spawned } :=
    late_of_move (m := .advance .go) rfl hlocking
  have hself (reader : Reader) (hreader : s.reader = reader)
      (h : Late serde n { s with reader }) : Late serde n s := by
    subst hreader
    exact h
  cases hreader : s.reader with
  | absent =>
    refine late_of_move (m := .notifications) ?_ hspawned
    change some s.notifications = _
    unfold State.notifications
    rw [hreader]
  | spawned => exact hself _ hreader hspawned
  | locking => exact hself _ hreader hlocking
  | connecting => exact hself _ hreader hconnecting
  | looping => exact hself _ hreader hlooping
  | listening => exact late_serve (.inr hreader) hopen hnote hn htaken
  | handling i data =>
    have hhandle : move serde (.advance .go) s = some (s.handle serde i data) := by
      change s.advance serde .go = _
      unfold State.advance
      rw [hreader]
    exact late_of_move hhandle (late_serve (.inl rfl) hopen hnote hn htaken)
  | rejected | waiting | exited =>
    rw [hreader] at hdone
    exact absurd trivial hdone

/-- A `close` is final exactly if the reader is then asleep in its `select`, or has ended or is about
to, or the stream is over. -/
theorem close_final_iff (hnote : payload serde note = some v)
    (h : play (move serde) ms {} = some s) :
    Final serde s ↔ s.reader.IsDone ∨ s.isOver = true := by
  have hsane := sane_play h sane_start
  constructor
  · intro hfinal
    by_cases hdone : s.reader.IsDone
    · exact .inl hdone
    cases hover : s.isOver with
    | true => exact .inr rfl
    | false =>
      obtain ⟨hreader, hserved, htaken, -⟩ := s.close_same
      have hlate : Late serde s.served.length s.close := by
        refine late_of_not_done (hreader ▸ hdone) ?_ hnote (hserved ▸ Nat.le_refl _) ?_
        · unfold State.isOver
          rw [hserved]
          exact hover
        · rw [hserved, htaken]
          exact hsane.taken
      obtain ⟨ms', s', hplay, p, hp, hlate⟩ := hlate
      exact absurd (hfinal ms' s' (play_cons.2 ⟨_, rfl, hplay⟩) p hp) (Nat.not_lt.2 hlate)
  · rintro (hdone | hover)
    · exact final_of_done hsane hdone
    · exact final_of_over hsane hover

/-! ## Samples -/

/-- A parser that knows one notification. -/
def noteSerde : Serde where
  float _ := "0.0"
  response s := if s = "note" then some { method := some "notifications/message" } else none

def sampleNote : Json :=
  .object [("method", .string "notifications/message"), ("params", .null)]

/-- The reader waits for the response to its request. -/
def connectingRun : List Move := [.notifications, .advance .go, .advance .go]

theorem close_final_iff_connecting : ∃ s, play (move noteSerde) connectingRun {} = some s ∧
    (Final noteSerde s ↔ s.reader.IsDone ∨ s.isOver = true) := by
  have hnote : payload noteSerde "note" = some sampleNote := rfl
  have hrun : play (move noteSerde) connectingRun {} = some { reader := .connecting } := rfl
  exact ⟨_, hrun, close_final_iff hnote hrun⟩

/-- A `close` while the reader connects is lost: it broadcasts what the server sends later. -/
theorem close_not_final : ∃ s, play (move noteSerde) connectingRun {} = some s ∧
    s.reader = .connecting ∧
    ∃ s', play (move noteSerde) [.close, .advance (.status 200), .serve (.event "note"),
        .advance .go, .advance .go, .advance .ready, .advance .go] s = some s' ∧
      s.served = [] ∧ s'.broadcast = [(0, sampleNote)] ∧ ¬Final noteSerde s := by
  have hrun : play (move noteSerde) [.close, .advance (.status 200), .serve (.event "note"),
      .advance .go, .advance .go, .advance .ready, .advance .go] { reader := .connecting } =
    some { reader := .looping, served := [.event "note"], taken := 1,
           broadcast := [(0, sampleNote)] } := rfl
  refine ⟨_, rfl, rfl, _, hrun, rfl, rfl, fun h => ?_⟩
  exact absurd (h _ _ hrun (0, sampleNote) List.mem_cons_self) (Nat.lt_irrefl 0)

end Tako.Mcp.StreamableHttp
