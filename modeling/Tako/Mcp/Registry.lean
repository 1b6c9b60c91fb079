import Tako.Core.Chat
import Tako.Core.Error
import Tako.Theory.LockedSections
import Tako.Theory.Result
import Tako.Theory.SortedMap

/-!
# The tool registry

`ToolRegistry` (`tako-mcp/src/registry.rs`) is a map behind a read-write lock. A discovery parses a
server's whole list before it asks for the lock, and puts all tools in under it, so that it is all
or nothing both for the registry it leaves behind and for the calls that run beside it
(`discover_atomic`).
-/

namespace Tako.Mcp

variable {W : Type}

/-- `McpTransport`, as far as the registry uses it. -/
structure McpTransport (W : Type) where
  request : String → Json → W → Result Json × W

/-- `Tool`, as far as the registry uses it. -/
structure Tool (W : Type) where
  name : String
  schema : ToolSchema
  invoke : Principal → Json → W → Result Json × W

inductive ToolEntry (W : Type) where
  | native (tool : Tool W)
  | mcp (schema : ToolSchema) (transport : McpTransport W)

def ToolEntry.schema : ToolEntry W → ToolSchema
  | .native tool => tool.schema
  | .mcp schema _ => schema

/-! ## A server's list -/

namespace ToolsList

/-- `Value::get` of a name. -/
def get (key : String) : Json → Option Json
  | .object members => members.lookup key
  | _ => none

/-- `Value::as_str`. -/
def asStr : Json → Option String
  | .string s => some s
  | _ => none

/-- `Value::as_array`. -/
def asArray : Json → Option (List Json)
  | .array items => some items
  | _ => none

/-- The entries of a reply. -/
def tools (result : Json) : List Json := ((get "tools" result).bind asArray).getD []

def toolName (t : Json) : Option String := (get "name" t).bind asStr

def missingName : TakoError := .invalid "MCP tools/list entry missing `name`"

def schema (t : Json) : Result ToolSchema :=
  match toolName t with
  | none => .error missingName
  | some name => .ok {
      name
      description := ((get "description" t).bind asStr).getD ""
      inputSchema := (get "inputSchema" t).getD (.object []) }

/-- The loop stops at the first entry without a name. -/
def schemas (result : Json) : Result (List ToolSchema) := (tools result).mapM schema

end ToolsList

/-! ## The registry -/

/-- The map, in the order of its names. -/
structure ToolRegistry (W : Type) where
  entries : List (String × ToolEntry W)
  sorted : SortedMap.Sorted entries

namespace ToolRegistry

def new : ToolRegistry W := ⟨[], .nil⟩

def get (tools : ToolRegistry W) (name : String) : Option (ToolEntry W) := tools.entries.lookup name

def insert (tools : ToolRegistry W) (name : String) (entry : ToolEntry W) : ToolRegistry W :=
  ⟨SortedMap.upsert name entry (fun _ => entry) tools.entries, tools.sorted.upsert⟩

theorem get_insert (tools : ToolRegistry W) (name : String) (entry : ToolEntry W) (key : String) :
    (tools.insert name entry).get key = if key = name then some entry else tools.get key :=
  SortedMap.lookup_upsert tools.sorted key

def registerNative (tools : ToolRegistry W) (tool : Tool W) : ToolRegistry W :=
  tools.insert tool.name (.native tool)

def registerMcp (tools : ToolRegistry W) (transport : McpTransport W) (schemas : List ToolSchema) :
    ToolRegistry W :=
  schemas.foldl (fun tools schema => tools.insert schema.name (.mcp schema transport)) tools

/-- The first part of `discover`. -/
def listTools (transport : McpTransport W) (w : W) : Result (List ToolSchema) × W :=
  let (reply, w) := transport.request "tools/list" .null w
  (reply.bind ToolsList.schemas, w)

def discover (tools : ToolRegistry W) (transport : McpTransport W) (w : W) :
    (Result Nat × ToolRegistry W) × W :=
  match listTools transport w with
  | (.error e, w) => ((.error e, tools), w)
  | (.ok schemas, w) => ((.ok schemas.length, tools.registerMcp transport schemas), w)

def schemas (tools : ToolRegistry W) : List ToolSchema :=
  (tools.entries.map fun e => e.2.schema).mergeSort fun a b => decide (a.name ≤ b.name)

def invoke (tools : ToolRegistry W) (principal : Principal) (name : String) (args : Json) (w : W) :
    Result Json × W :=
  match tools.get name with
  | none => (.error (.notFound s!"tool `{name}`"), w)
  | some (.native tool) => tool.invoke principal args w
  | some (.mcp _ transport) =>
    transport.request "tools/call" (.object [("arguments", args), ("name", .string name)]) w

theorem mem_schemas {tools : ToolRegistry W} {schema : ToolSchema} :
    schema ∈ tools.schemas ↔ ∃ name entry, tools.get name = some entry ∧ entry.schema = schema := by
  rw [schemas, List.mem_mergeSort, List.mem_map]
  constructor
  · rintro ⟨⟨name, entry⟩, hmem, hschema⟩
    exact ⟨name, entry, (SortedMap.mem_iff_lookup tools.sorted).1 hmem, hschema⟩
  · rintro ⟨name, entry, hget, hschema⟩
    exact ⟨(name, entry), (SortedMap.mem_iff_lookup tools.sorted).2 hget, hschema⟩

theorem schemas_sorted (tools : ToolRegistry W) :
    tools.schemas.Pairwise fun a b => a.name ≤ b.name := by
  refine (List.pairwise_mergeSort (fun a b c hab hbc => ?_) (fun a b => ?_) _).imp ?_
  · simp only [decide_eq_true_eq] at hab hbc ⊢
    exact Std.le_trans hab hbc
  · simpa using Std.le_total
  · intro a b hab
    simpa using hab

/-! ## What a registration puts in -/

/-- What is registered: a native tool, or the tools of a server. -/
inductive Origin (W : Type) where
  | native (tool : Tool W)
  | mcp (transport : McpTransport W) (schemas : List ToolSchema)

abbrev Insertion (W : Type) := String × ToolEntry W

def apply (tools : ToolRegistry W) (e : Insertion W) : ToolRegistry W := tools.insert e.1 e.2

namespace Origin

/-- The insertions, in order. -/
def inserts : Origin W → List (Insertion W)
  | .native tool => [(tool.name, .native tool)]
  | .mcp transport schemas => schemas.map fun schema => (schema.name, .mcp schema transport)

/-- The entry under a name that a registration leaves. -/
def entry (name : String) : Origin W → Option (ToolEntry W)
  | .native tool => if name = tool.name then some (.native tool) else none
  | .mcp transport schemas =>
    (schemas.reverse.find? fun schema => schema.name = name).map fun schema => .mcp schema transport

end Origin

theorem registerNative_eq (tools : ToolRegistry W) (tool : Tool W) :
    tools.registerNative tool = (Origin.native tool).inserts.foldl apply tools := rfl

theorem registerMcp_eq (tools : ToolRegistry W) (transport : McpTransport W)
    (schemas : List ToolSchema) : tools.registerMcp transport schemas =
      (Origin.mcp transport schemas).inserts.foldl apply tools := by
  simp [registerMcp, Origin.inserts, List.foldl_map, apply]

theorem get_foldl_apply (inserts : List (Insertion W)) (tools : ToolRegistry W) (name : String) :
    (inserts.foldl apply tools).get name =
      (inserts.reverse.lookup name).or (tools.get name) := by
  induction inserts generalizing tools with
  | nil => rfl
  | cons e inserts ih =>
    rw [List.foldl_cons, ih, apply, get_insert, List.reverse_cons, List.lookup_append,
      Option.or_assoc, SortedMap.lookup_cons, List.lookup_nil]
    split <;> rfl

theorem lookup_inserts (o : Origin W) (name : String) :
    o.inserts.reverse.lookup name = o.entry name := by
  cases o with
  | native tool => simp [Origin.inserts, Origin.entry, SortedMap.lookup_cons]
  | mcp transport schemas =>
    rw [Origin.inserts, Origin.entry, ← List.map_reverse]
    induction schemas.reverse with
    | nil => rfl
    | cons schema rest ih =>
      rw [List.map_cons, SortedMap.lookup_cons, ih, List.find?_cons]
      by_cases h : name = schema.name
      · simp [h]
      · simp [h, Ne.symm h]

/-- A registration leaves its last entry under each of its names, and every other entry. -/
theorem get_register (o : Origin W) (tools : ToolRegistry W) (name : String) :
    (o.inserts.foldl apply tools).get name = (o.entry name).or (tools.get name) := by
  rw [get_foldl_apply, lookup_inserts]

/-! ## A discovery by itself -/

/-- A reply's entry says what the schema says, where it says nothing the defaults hold. -/
structure Describes (t : Json) (schema : ToolSchema) : Prop where
  name : ToolsList.toolName t = some schema.name
  description : schema.description = ((ToolsList.get "description" t).bind ToolsList.asStr).getD ""
  inputSchema : schema.inputSchema = (ToolsList.get "inputSchema" t).getD (.object [])
  annotations : schema.annotations = none

/-- What a discovery answers and leaves behind, by the server's reply: an error and the registry as
it was, or the number of the tools, all of which are now the transport's. -/
inductive Discovered (tools : ToolRegistry W) (transport : McpTransport W) :
    Result Json → Result Nat → ToolRegistry W → Prop
  | failed (e : TakoError) : Discovered tools transport (.error e) (.error e) tools
  | malformed : t ∈ ToolsList.tools result → ToolsList.toolName t = none →
    Discovered tools transport (.ok result) (.error ToolsList.missingName) tools
  | registered (listed : List ToolSchema) : List.Forall₂ Describes (ToolsList.tools result) listed →
    (∀ name, tools'.get name = ((listed.reverse.find? fun schema => schema.name = name).map
      fun schema => .mcp schema transport).or (tools.get name)) →
    Discovered tools transport (.ok result) (.ok listed.length) tools'

theorem schema_eq_ok_iff {t : Json} {schema : ToolSchema} :
    ToolsList.schema t = .ok schema ↔ Describes t schema := by
  rw [ToolsList.schema]
  cases hname : ToolsList.toolName t with
  | none => exact ⟨nofun, fun h => absurd (hname.symm.trans h.name) nofun⟩
  | some name =>
    constructor
    · rintro ⟨⟩
      exact ⟨hname, rfl, rfl, rfl⟩
    · intro ⟨hname', hdescription, hinput, hannotations⟩
      obtain ⟨name', description, inputSchema, annotations⟩ := schema
      simp only at hname' hdescription hinput hannotations
      rw [hname, Option.some.injEq] at hname'
      rw [hname', hdescription, hinput, hannotations]

theorem schema_eq_error {t : Json} {e : TakoError} (h : ToolsList.schema t = .error e) :
    ToolsList.toolName t = none ∧ e = ToolsList.missingName := by
  rw [ToolsList.schema] at h
  cases hname : ToolsList.toolName t with
  | none =>
    rw [hname] at h
    exact ⟨rfl, (Except.error.inj h).symm⟩
  | some name =>
    rw [hname] at h
    cases h

theorem discover_discovered (tools : ToolRegistry W) (transport : McpTransport W) (w : W) :
    Discovered tools transport (transport.request "tools/list" .null w).1
      (tools.discover transport w).1.1 (tools.discover transport w).1.2 := by
  rw [discover, listTools]
  generalize transport.request "tools/list" .null w = reply
  obtain ⟨reply, w⟩ := reply
  cases reply with
  | error e => exact .failed e
  | ok result =>
    cases hschemas : ToolsList.schemas result with
    | error e =>
      obtain ⟨t, ht, herror⟩ := Except.mapM_eq_error hschemas
      obtain ⟨hname, rfl⟩ := schema_eq_error herror
      simpa [Except.bind, hschemas] using Discovered.malformed ht hname
    | ok listed =>
      have hlisted : List.Forall₂ Describes (ToolsList.tools result) listed :=
        (Except.mapM_eq_ok.1 hschemas).imp fun _ _ => schema_eq_ok_iff.1
      simp only [Except.bind, hschemas]
      refine .registered listed hlisted fun name => ?_
      rw [registerMcp_eq, get_register]
      rfl

/-! ## Discoveries beside other calls -/

open Interleaving (Config)

/-- The registry behind its lock. Registrations are numbered in the order in which they ask for the
lock, and those that have let it go are kept. -/
abbrev Cell (ι W : Type) := LockedSections.Cell ι (ToolRegistry W) (Origin W)

/-- The calls that read. -/
inductive Query where
  | schemas
  | invoke (principal : Principal) (name : String) (args : Json)

/-- Where a task stands. -/
inductive Task (W : Type) where
  | idle
  | requesting (transport : McpTransport W)
  | refused (e : TakoError)
  | waiting (n : Nat) (o : Origin W)
  | writing (n : Nat) (o : Origin W) (rest : List (Insertion W))
  | registered (n : Nat) (o : Origin W)
  | asking (q : Query)
  | reading (q : Query)
  | listed (schemas : List ToolSchema)
  | invoked (r : Result Json)

namespace Task

/-- The call has returned. -/
def Returned : Task W → Prop
  | refused _ | registered _ _ | listed _ | invoked _ => True
  | _ => False

/-- The call waits and holds no lock. -/
def Awaits : Task W → Prop
  | requesting _ | waiting _ _ | asking _ => True
  | _ => False

/-- Where the task stands with the lock. -/
def phase : Task W → LockedSections.Phase (Origin W) (Insertion W)
  | waiting n o => .waiting n o
  | writing n o rest => .writing n o rest
  | reading _ => .reading
  | _ => .outside

/-- The task holds the lock, and has put nothing in. -/
def Observes (t : Task W) : Prop := t.phase.Looks Origin.inserts

end Task

/-- A task begins a call, goes on with it, or is dropped at an `await`. Under the write lock there is
none; `invoke` holds the read lock while the tool works. -/
inductive Move [DecidableEq ι] (i : ι) : Cell ι W → Task W → Cell ι W → Task W → Prop
  | discover (transport : McpTransport W) : Move i c .idle c (.requesting transport)
  | register (o : Origin W) : Move i c .idle { c with next := c.next + 1 } (.waiting c.next o)
  | query (q : Query) : Move i c .idle c (.asking q)
  | refuse (w : W) : (listTools transport w).1 = .error e →
    Move i c (.requesting transport) c (.refused e)
  | accept (w : W) (listed : List ToolSchema) : (listTools transport w).1 = .ok listed →
    Move i c (.requesting transport) { c with next := c.next + 1 }
      (.waiting c.next (.mcp transport listed))
  | lock : c.writer = none → c.readers = ∅ →
    Move i c (.waiting n o) { c with writer := some i } (.writing n o o.inserts)
  | insert : Move i c (.writing n o (e :: rest)) { c with value := apply c.value e }
    (.writing n o rest)
  | unlock : Move i c (.writing n o [])
    { c with writer := none, done := c.done ++ [(n, o)] } (.registered n o)
  | lockRead : c.writer = none →
    Move i c (.asking q) { c with readers := Insert.insert i c.readers } (.reading q)
  | list : Move i c (.reading .schemas) { c with readers := c.readers.erase i }
    (.listed c.value.schemas)
  | invoke (w : W) : Move i c (.reading (.invoke principal name args))
    { c with readers := c.readers.erase i } (.invoked (c.value.invoke principal name args w).1)
  | drop : t.Awaits → Move i c t c .idle
  | dropInvoke : Move i c (.reading (.invoke principal name args))
    { c with readers := c.readers.erase i } .idle
  | again : t.Returned → Move i c t c .idle

/-- The registry before any of the tasks has called. -/
def start (tools : ToolRegistry W) : Config ι (Cell ι W) (Task W) :=
  ⟨⟨tools, none, ∅, 0, []⟩, fun _ => .idle⟩

abbrev Run [DecidableEq ι] : Config ι (Cell ι W) (Task W) → Config ι (Cell ι W) (Task W) → Prop :=
  Interleaving.Run Move

/-- A task's moves are moves of a section under the lock. -/
theorem Move.locked [DecidableEq ι] {i : ι} {c d : Cell ι W} {t u : Task W} (h : Move i c t d u) :
    LockedSections.Move apply Origin.inserts i c t.phase d u.phase := by
  cases h with
  | discover | query | refuse => exact .stay
  | register o => exact .enter o
  | accept w listed hlisted => exact .enter _
  | lock hwriter hreaders => exact .lock hwriter hreaders
  | insert => exact .update
  | unlock => exact .unlock
  | lockRead hwriter => exact .lockRead hwriter
  | list | invoke | dropInvoke => exact .unlockRead
  | drop ht =>
    cases t with
    | waiting => exact .leave
    | requesting | asking => exact .stay
    | _ => exact ht.elim
  | again ht =>
    cases t with
    | refused | registered | listed | invoked => exact .stay
    | _ => exact ht.elim

theorem Run.locked [DecidableEq ι] {tools : ToolRegistry W} {c : Config ι (Cell ι W) (Task W)}
    (h : Run (start tools) c) : LockedSections.Run apply Origin.inserts
      (LockedSections.start tools) (c.map id Task.phase) :=
  Interleaving.Run.map (f := id) (g := Task.phase) h Move.locked

/-- What a registration leaves under a name after some registrations. -/
theorem get_written (tools : ToolRegistry W) (done : List (Nat × Origin W)) (name : String) :
    (LockedSections.written apply Origin.inserts tools done).get name =
      (done.reverse.findSome? fun e => e.2.entry name).or (tools.get name) := by
  induction done generalizing tools with
  | nil => rfl
  | cons e done ih =>
    rw [LockedSections.written_cons, ih, get_register, List.reverse_cons, List.findSome?_append,
      Option.or_assoc, List.findSome?_singleton]

/-- A registration that is done stays so. -/
theorem Move.done_subset [DecidableEq ι] {i : ι} {c d : Cell ι W} {t u : Task W}
    (h : Move i c t d u) : c.done ⊆ d.done := by
  cases h with
  | unlock => exact List.subset_append_left _ _
  | _ => exact fun _ he => he

/-- A call that registered, and has returned, is done. -/
theorem Run.registered_done [DecidableEq ι] {tools : ToolRegistry W}
    {c : Config ι (Cell ι W) (Task W)} (h : Run (start tools) c) :
    ∀ i n o, c.locals i = .registered n o → (n, o) ∈ c.shared.done := by
  refine h.invariant (I := fun c => ∀ i n o, c.locals i = .registered n o → (n, o) ∈ c.shared.done)
    (fun {c i d t} hc hs j n o hj => ?_) (fun i n o hi => nomatch hi)
  rcases eq_or_ne j i with rfl | hne
  · simp only [Function.update_self] at hj
    subst hj
    generalize c.locals j = t at hs
    cases hs with
    | unlock => exact List.mem_append_right _ (List.mem_singleton_self _)
  · simp only [Function.update_of_ne hne] at hj
    exact hs.done_subset (hc j n o hj)

/-- Of the tools of call `n` either none is there, whatever is there being from before the run or from
other calls that are done, or the call is done and all its tools are there but for those that later
calls have replaced. -/
inductive AllOrNone (tools : ToolRegistry W) (done : List (Nat × Origin W)) (n : Nat)
    (seen : ToolRegistry W) : Prop
  | none : (∀ e ∈ done, e.1 ≠ n) →
    (∀ name entry, seen.get name = some entry →
      tools.get name = some entry ∨ ∃ e ∈ done, e.2.entry name = some entry) →
    AllOrNone tools done n seen
  | all : done = before ++ (n, o) :: after → (∀ e ∈ before ++ after, e.1 ≠ n) →
    (∀ name entry, o.entry name = some entry → seen.get name = some entry ∨
      ∃ e ∈ after, ∃ later, e.2.entry name = some later ∧ seen.get name = some later) →
    AllOrNone tools done n seen

theorem allOrNone_written (tools : ToolRegistry W) {done : List (Nat × Origin W)}
    (hnodup : (done.map Prod.fst).Nodup) (n : Nat) :
    AllOrNone tools done n (LockedSections.written apply Origin.inserts tools done) := by
  by_cases hn : n ∈ done.map Prod.fst
  · obtain ⟨⟨n, o⟩, hmem, rfl⟩ := List.mem_map.1 hn
    obtain ⟨before, after, rfl⟩ := List.append_of_mem hmem
    refine .all rfl (fun e he heq => ?_) fun name entry hentry => ?_
    · have hperm : (before ++ (n, o) :: after).Perm ((n, o) :: (before ++ after)) :=
        List.perm_middle
      have hnot := (List.nodup_cons.1 ((hperm.map Prod.fst).nodup_iff.1 hnodup)).1
      exact hnot (heq ▸ List.mem_map_of_mem he)
    · rw [get_written, List.reverse_append, List.reverse_cons, List.append_assoc,
        List.findSome?_append, Option.or_assoc]
      cases hlater : after.reverse.findSome? fun e => e.2.entry name with
      | none => exact .inl (by simp [hentry])
      | some later =>
        obtain ⟨e, he, hlater⟩ := List.exists_of_findSome?_eq_some hlater
        exact .inr ⟨e, List.mem_reverse.1 he, later, hlater, rfl⟩
  · refine .none (fun e he heq => hn (heq ▸ List.mem_map_of_mem he)) fun name entry hentry => ?_
    rw [get_written, Option.or_eq_some_iff] at hentry
    rcases hentry with hdone | ⟨-, htools⟩
    · obtain ⟨e, he, hentry⟩ := List.exists_of_findSome?_eq_some hdone
      exact .inr ⟨e, List.mem_reverse.1 he, hentry⟩
    · exact .inl htools

/-- A discovery is all or nothing. By itself it answers an error and leaves the registry as it was,
or the transport gets exactly the listed names. Beside any other calls, a task that observes the
registry sees all of its tools or none, and all of them once it has returned. -/
theorem discover_atomic :
    (∀ (tools : ToolRegistry W) (transport : McpTransport W) (w : W),
      Discovered tools transport (transport.request "tools/list" .null w).1
        (tools.discover transport w).1.1 (tools.discover transport w).1.2) ∧
    ∀ {ι : Type} [DecidableEq ι] (tools : ToolRegistry W) (c : Config ι (Cell ι W) (Task W)),
      Run (start tools) c →
      (∀ i, (c.locals i).Observes → ∀ n, AllOrNone tools c.shared.done n c.shared.value) ∧
      ∀ i n o, c.locals i = .registered n o → (n, o) ∈ c.shared.done := by
  refine ⟨discover_discovered, fun tools c h => ⟨fun i hi n => ?_, h.registered_done⟩⟩
  have hseen : c.shared.value = LockedSections.written apply Origin.inserts tools c.shared.done :=
    h.locked.seen hi
  rw [hseen]
  exact allOrNone_written tools h.locked.numbered.nodup n

/-- A server of two tools. -/
def clock : McpTransport Unit where
  request _ _ w := (.ok (.object [("tools", .array
    [.object [("name", .string "now")], .object [("name", .string "zone")]])]), w)

/-- A task discovers the server's tools, and then another one reads the registry. -/
theorem discover_atomic_clock : ∃ c : Config Bool (Cell Bool Unit) (Task Unit),
    Run (start new) c ∧ c.locals true = .reading .schemas ∧
    (∃ o, c.shared.done = [(0, o)]) ∧ (c.shared.value.get "now").isSome ∧
    (c.shared.value.get "zone").isSome ∧ AllOrNone new c.shared.done 0 c.shared.value := by
  have hstart : Run (start new) (start new : Config Bool (Cell Bool Unit) (Task Unit)) := .refl
  have hlocked := ((hstart.task false rfl (.discover clock)).task false rfl (.accept () _ rfl)).task
    false rfl (.lock rfl rfl)
  have hinserted := (hlocked.task false rfl .insert).task false rfl .insert
  have hdiscovered := hinserted.task false rfl .unlock
  have hreading := (hdiscovered.task true rfl (.query .schemas)).task true rfl (.lockRead rfl)
  exact ⟨_, hreading, rfl, ⟨_, rfl⟩, rfl, rfl, (discover_atomic.2 new _ hreading).1 true trivial 0⟩

end ToolRegistry

end Tako.Mcp
