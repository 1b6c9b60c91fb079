import Mathlib.Logic.Function.Basic
import Tako.Mcp.JsonRpc
import Tako.Theory.Machine

/-!
# The stream transports

`StdioTransport`, `WebSocketTransport` and `GrpcTransport` (`tako-mcp/src/transport/stdio.rs`,
`websocket.rs`, `grpc.rs`) are one design: calls share a sink under a lock, a reader task hands the
responses to the calls that wait for them. What differs is a `Transport`.

Calls and reader take steps in any order. A step goes up to the next `await`, and a call can be
dropped at any of them.
-/

namespace Tako.Mcp

/-- What the reader makes of an item from the peer. -/
inductive Incoming where
  | text (s : String)
  | skipped
  | stop

/-- What a transport does its own way. The sink takes a frame atom by atom. -/
structure Transport where
  Item : Type
  Atom : Type
  incoming : Item → Incoming
  frame : String → List Atom
  farewell : List Atom
  writeError : String → TakoError
  flushError : Option (String → TakoError)
  unregisters : Bool

/-- A result of `next_line`. Every write is followed by a flush. -/
def stdio : Transport where
  Item := Except String (Option String)
  Atom := UInt8
  incoming
    | .ok (some line) => .text line
    | _ => .stop
  frame payload := Str.asBytes (payload ++ "\n")
  farewell := []
  writeError e := .transport s!"write: {e}"
  flushError := some fun e => .transport s!"flush: {e}"
  unregisters := false

/-- `tungstenite::Message`. -/
inductive WsMessage where
  | text (s : String)
  | binary (bytes : List UInt8)
  | ping
  | pong
  | close

/-- `str::from_utf8`. -/
def fromUtf8 (bytes : List UInt8) : Option String := String.fromUTF8? ⟨bytes.toArray⟩

def webSocket : Transport where
  Item := Option (Except String WsMessage)
  Atom := WsMessage
  incoming
    | some (.ok (.text t)) => .text t
    | some (.ok (.binary b)) =>
      match fromUtf8 b with
      | some s => .text s
      | none => .skipped
    | some (.ok .close) => .stop
    | some (.ok _) => .skipped
    | some (.error _) => .stop
    | none => .stop
  frame payload := [.text payload]
  farewell := [.close]
  writeError e := .transport s!"ws send: {e}"
  flushError := some fun e => .transport s!"ws send: {e}"
  unregisters := true

/-- An atom is a `Frame`, of which this is the `json`. -/
def grpc : Transport where
  Item := Option (Except String (List UInt8))
  Atom := List UInt8
  incoming
    | some (.ok json) =>
      match fromUtf8 json with
      | some s => .text s
      | none => .skipped
    | some (.error _) => .stop
    | none => .stop
  frame payload := [Str.asBytes payload]
  farewell := []
  writeError e := .transport s!"grpc send: {e}"
  flushError := none
  unregisters := true

/-! ## Calls -/

inductive Call where
  | request (method : String) (params : Json)
  | notify (method : String) (params : Json)
  | close

def Call.isRequest : Call → Bool
  | .request _ _ => true
  | _ => false

/-- The channel over which the reader answers a request; `unasked` until its sender is in the map. -/
inductive Reply where
  | unasked
  | open
  | sent (r : Result Json)
  | closed

/-- The sender is dropped. -/
def Reply.close : Reply → Reply
  | .open => .closed
  | reply => reply

/-- Where a call is. It fails where its frame is not sent; a call without a value returns `null`. -/
inductive Phase (α : Type) where
  | start
  | registering
  | acquiring
  | writing (rest : List α)
  | unregistering (e : TakoError)
  | waiting
  | failed (e : TakoError)
  | returned (r : Result Json)
  | dropped

def Phase.isOver {α : Type} : Phase α → Bool
  | .failed _ | .returned _ | .dropped => true
  | _ => false

structure Task (α : Type) where
  call : Call
  id : UInt64 := 0
  phase : Phase α := .start
  reply : Reply := .unasked

/-! ## The connection -/

/-- `Inner`, with the calls and the reader. `output` is what the sink took. -/
structure State (T : Transport) where
  tasks : Nat → Task T.Atom
  nextId : UInt64 := 1
  pending : UInt64 → Option Nat := fun _ => none
  isOpen : Bool := true
  holder : Option Nat := none
  reading : Bool := true
  output : List T.Atom := []
  notified : List Json := []

variable (T : Transport) (serde : Serde)

/-- No call has begun. -/
def start (calls : Nat → Call) : State T where
  tasks i := { call := calls i }

variable {T}

namespace State

def setTask (i : Nat) (t : Task T.Atom) (s : State T) : State T :=
  { s with tasks := Function.update s.tasks i t }

def setPhase (i : Nat) (phase : Phase T.Atom) (s : State T) : State T :=
  s.setTask i { s.tasks i with phase }

def setReply (i : Nat) (reply : Reply) (s : State T) : State T :=
  s.setTask i { s.tasks i with reply }

/-- The sender under an id leaves the map. -/
def removeSender (id : UInt64) (s : State T) : State T :=
  match s.pending id with
  | some i =>
    { s.setReply i (s.tasks i).reply.close with pending := Function.update s.pending id none }
  | none => s

/-- The sender of a request goes into the map, in place of another one under its id. -/
def register (i : Nat) (s : State T) : State T :=
  let id := (s.tasks i).id
  let s := s.removeSender id
  { s.setTask i { s.tasks i with phase := .acquiring, reply := .open } with
    pending := Function.update s.pending id (some i) }

/-! ## The reader -/

/-- The frame in an item. -/
def heard (item : T.Item) : Option Response :=
  match T.incoming item with
  | .text s => if (Str.trim s).isEmpty then none else serde.response s
  | _ => none

def receive (r : Response) (s : State T) : State T :=
  match r.id with
  | some id =>
    match s.pending id with
    | some i => { s.setReply i (.sent r.outcome) with pending := Function.update s.pending id none }
    | none => s
  | none =>
    match r.method with
    | some method => { s with notified := s.notified ++ [r.notified method] }
    | none => s

def read (item : T.Item) (s : State T) : Option (State T) :=
  if s.reading then
    match T.incoming item with
    | .stop => some { s with reading := false }
    | _ =>
      match heard serde item with
      | some r => some (s.receive r)
      | none => some s
  else none

/-! ## The steps of a call -/

/-- A call begins. A request draws its id. -/
def begin (i : Nat) (s : State T) : State T :=
  match (s.tasks i).call with
  | .request _ _ =>
    { s.setTask i { s.tasks i with id := s.nextId, phase := .registering } with
      nextId := s.nextId + 1 }
  | _ => s.setPhase i .acquiring

/-- What a call sends. -/
def frame (t : Task T.Atom) : List T.Atom :=
  match t.call with
  | .request method params => T.frame (serde.request t.id method params)
  | .notify method params => T.frame (serde.notification method params)
  | .close => T.farewell

/-- Where a call is whose frame is sent. -/
def sentPhase (T : Transport) : Call → Phase T.Atom
  | .request _ _ => .waiting
  | _ => .returned (.ok .null)

/-- Where a call is whose frame is not sent. -/
def failedPhase (T : Transport) (e : TakoError) : Call → Phase T.Atom
  | .request _ _ => if T.unregisters then .unregistering e else .failed e
  | .notify _ _ => .failed e
  | .close => .returned (.ok .null)

/-- A call has the lock of the sink. `close` takes the sink out. -/
def acquire (i : Nat) (s : State T) : State T :=
  let t := s.tasks i
  if s.isOpen then
    { s.setPhase i (.writing (frame serde t)) with
      holder := some i
      isOpen := match t.call with
        | .close => false
        | _ => true }
  else s.setPhase i (failedPhase T (.transport "transport closed") t.call)

/-- The frame is sent and the lock released. -/
def finish (i : Nat) (s : State T) : State T :=
  { s.setPhase i (sentPhase T (s.tasks i).call) with holder := none }

/-- A write fails and the lock is released. -/
def fail (i : Nat) (e : TakoError) (s : State T) : State T :=
  { s.setPhase i (failedPhase T e (s.tasks i).call) with holder := none }

/-- The environment's part in a step: the sink takes some of the frame, or fails. -/
inductive Progress where
  | go
  | accept (n : Nat)
  | error (e : String)

/-- The error of a write that has `rest` to write. -/
def sendError (rest : List T.Atom) (e : String) : Option TakoError :=
  if rest.isEmpty then T.flushError.map (· e) else some (T.writeError e)

def advance (i : Nat) (how : Progress) (s : State T) : Option (State T) :=
  match (s.tasks i).phase, how with
  | .start, .go => some (s.begin i)
  | .registering, .go => some (s.register i)
  | .acquiring, .go => if s.holder = none then some (s.acquire serde i) else none
  | .writing [], .go => some (s.finish i)
  | .writing rest, .accept n =>
    if 0 < n ∧ n ≤ rest.length then
      some { s.setPhase i (.writing (rest.drop n)) with output := s.output ++ rest.take n }
    else none
  | .writing rest, .error e =>
    (sendError rest e).map fun e => s.fail i e
  | .unregistering e, .go => some ((s.removeSender (s.tasks i).id).setPhase i (.failed e))
  | .waiting, .go =>
    match (s.tasks i).reply with
    | .unasked | .open => none
    | .sent r => some (s.setPhase i (.returned r))
    | .closed => some (s.setPhase i (.returned (.error (.transport "rpc channel closed"))))
  | _, _ => none

/-- The future of a call is dropped, and the lock with it. -/
def drop (i : Nat) (s : State T) : Option (State T) :=
  if (s.tasks i).phase.isOver then none
  else some { s.setPhase i .dropped with holder := if s.holder = some i then none else s.holder }

end State

inductive Move (T : Transport) where
  | read (item : T.Item)
  | advance (i : Nat) (how : State.Progress)
  | drop (i : Nat)

def move : Move T → State T → Option (State T)
  | .read item, s => s.read serde item
  | .advance i how, s => s.advance serde i how
  | .drop i, s => s.drop i

end Tako.Mcp
