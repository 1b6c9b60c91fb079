import Tako.Providers.Convert.OllamaAgreement
import Tako.Providers.Convert.VertexAgreement
import Tako.Rust.Encoding

/-!
# Ids of tool calls across a conversation

Vertex makes the id of a call from its name and arguments, Ollama from its number in the turn. The
converter of Vertex looks the name of a result's call up by the id, among the calls of the whole
conversation: it finds the last one, although a result belongs to a call before it
(`identity_iff`).
-/

namespace Tako.Providers.ToolIds

open Encoding Vertex

/-! ## Conversations -/

/-- An answer of one of the two providers, or another message. -/
inductive Entry where
  | vertex (resp : VxResponse)
  | ollama (resp : Ollama.OlResponse)
  | other (message : Message)

variable (E : Vertex.Env)

/-- The message of an entry. An answer without candidates is an error. -/
def Entry.message : Entry → Option Message
  | .vertex resp => (fromVertexResponse E resp).toOption.map (·.message)
  | .ollama resp => (Ollama.fromOllamaResponse resp).toOption.map (·.message)
  | .other message => some message

/-- The tool calls of the message were decoded by a provider's adapter. -/
def Entry.Decoded : Entry → Prop
  | .vertex _ | .ollama _ => True
  | .other _ => False

def conversation (entries : List Entry) : List Message := entries.filterMap (Entry.message E)

/-! ## Results and their calls -/

/-- A tool result in a message that is sent, with what comes before and after it. -/
structure ResultAt (messages : List Message) where
  before : List Message
  role : Role
  pre : List ContentPart
  id : String
  result : Json
  isError : Bool
  post : List ContentPart
  after : List Message
  sent : role ≠ .system
  found : messages = before ++ ⟨role, pre ++ .toolResult id result isError :: post⟩ :: after

namespace ResultAt

variable {messages : List Message} (p : ResultAt messages)

/-- The calls before the result. -/
def earlier : List (String × String × Json) :=
  p.before.flatMap Message.toolCalls ++ (⟨p.role, p.pre⟩ : Message).toolCalls

/-- The calls after the result. -/
def later : List (String × String × Json) :=
  (⟨p.role, p.post⟩ : Message).toolCalls ++ p.after.flatMap Message.toolCalls

/-- The request has a function response with the name in the result's place. -/
def Emits (wire : VxRequest) (name : String) : Prop :=
  ∃ content, wire.contents[(p.before.filter (·.role ≠ .system)).length]? = some content ∧
    content.parts[(p.pre.filterMap (partToVx fun _ => none)).length]? =
      some (.functionResponse name p.result)

end ResultAt

/-- The last of the calls with the id has the name. -/
def LastCall (calls : List (String × String × Json)) (id name : String) : Prop :=
  ∃ before args after, calls = before ++ (id, name, args) :: after ∧ ∀ c ∈ after, c.1 ≠ id

/-- The ids that the adapters make are distinct in each turn, and each result is sent with the name
of the last call before it that has its id. -/
structure Identity (entries : List Entry) (wire : VxRequest) : Prop where
  distinct : ∀ e ∈ entries, e.Decoded → ∀ m, e.message E = some m → (m.toolCalls.map (·.1)).Nodup
  names : ∀ (p : ResultAt (conversation E entries)) (name : String),
    LastCall p.earlier p.id name → p.Emits wire name

/-! ## Ids -/

def hexValue (digits : List Char) : Nat :=
  digits.foldl (fun n c => 16 * n + (hexDigit? c).getD 0) 0

theorem hexValue_toDigits (n : Nat) : hexValue (Nat.toDigits 16 n) = n := by
  have hdigit : ∀ d < 16, (hexDigit? (Nat.digitChar d)).getD 0 = d := by decide
  induction n using Nat.strongRecOn with
  | ind n ih =>
    rw [Nat.toDigits_eq_if (by decide)]
    split
    · next h =>
      rw [hexValue, List.foldl_cons, List.foldl_nil, hdigit n h]
      omega
    · next h =>
      have hdiv := ih (n / 16) (Nat.div_lt_self (by omega) (by decide))
      unfold hexValue at hdiv ⊢
      rw [List.foldl_concat, hdiv, hdigit _ (Nat.mod_lt n (by decide))]
      omega

theorem hexValue_zeros (k : Nat) (digits : List Char) :
    hexValue (List.replicate k '0' ++ digits) = hexValue digits := by
  induction k with
  | zero => rfl
  | succ k ih => exact ih

theorem hex16_injective : Function.Injective hex16 := by
  intro n m h
  have hvalue := congrArg (fun s => hexValue s.toList) h
  simp only [hex16, String.toList_ofList, hexValue_zeros, hexValue_toDigits] at hvalue
  exact UInt64.toNat_inj.1 hvalue

/-- The calls of an answer's first candidate. -/
def answerCalls (resp : VxResponse) : List VxResponseFunctionCall :=
  (resp.candidates.head?.map fun cand => partsCalls cand.parts).getD []

def digest (fc : VxResponseFunctionCall) : UInt64 := E.hash fc.name (E.text fc.args)

theorem message_vertex (resp : VxResponse) : (Entry.vertex resp).message E =
    resp.candidates.head?.map fun cand => ⟨.assistant, cand.parts.flatMap (partContent E)⟩ := by
  change (fromVertexResponse E resp).toOption.map (·.message) = _
  unfold fromVertexResponse
  cases resp.candidates <;> rfl

theorem vertex_ids_iff (cand : VxCandidate) :
    (((⟨.assistant, cand.parts.flatMap (partContent E)⟩ : Message).toolCalls).map (·.1)).Nodup ↔
      ((partsCalls cand.parts).map (digest E)).Nodup := by
  have hid : Function.Injective fun d : UInt64 => "vertex_call_" ++ hex16 d := fun d d' hd =>
    hex16_injective ((String.append_right_inj _).1 hd)
  rw [message_toolCalls, readCalls, List.map_map, ← List.nodup_map_iff hid, List.map_map]
  rfl

theorem ollama_ids_nodup {resp : Ollama.OlResponse} {m : Message}
    (h : (Entry.ollama resp).message E = some m) : (m.toolCalls.map (·.1)).Nodup := by
  cases h
  have hnumbers : (resp.message.toolCalls.zipIdx.map Prod.snd).Nodup := by
    rw [List.zipIdx_map_snd]
    exact List.nodup_range'
  have hids := hnumbers.map Ollama.callId_injective
  rw [List.map_map] at hids
  rw [Ollama.content_toolCalls, List.map_map]
  exact hids

/-- The ids of the turns are distinct exactly if no two calls of an answer of Vertex have one
digest. -/
theorem distinct_iff (entries : List Entry) :
    (∀ e ∈ entries, e.Decoded → ∀ m, e.message E = some m → (m.toolCalls.map (·.1)).Nodup) ↔
      ∀ resp, .vertex resp ∈ entries → ((answerCalls resp).map (digest E)).Nodup := by
  constructor
  · intro h resp hmem
    unfold answerCalls
    cases hcand : resp.candidates.head? with
    | none => exact List.nodup_nil
    | some cand =>
      have hm := message_vertex E resp
      rw [hcand] at hm
      exact (vertex_ids_iff E cand).1 (h _ hmem trivial _ hm)
  · intro h e he hdecoded m hm
    cases e with
    | vertex resp =>
      rw [message_vertex] at hm
      obtain ⟨cand, hcand, rfl⟩ := Option.map_eq_some_iff.1 hm
      have hdigests := h resp he
      rw [answerCalls, hcand] at hdigests
      exact (vertex_ids_iff E cand).2 hdigests
    | ollama resp => exact ollama_ids_nodup E hm
    | other => exact hdecoded.elim

/-! ## Names -/

variable {E}

theorem lastCall_iff {calls : List (String × String × Json)} {id name : String} :
    LastCall calls id name ↔ (calls.reverse.find? (·.1 = id)).map (·.2.1) = some name := by
  constructor
  · rintro ⟨before, args, after, rfl, hafter⟩
    have hnone : after.reverse.find? (·.1 = id) = none :=
      List.find?_eq_none.2 fun c hc => by simpa using hafter c (List.mem_reverse.1 hc)
    rw [List.reverse_append, List.reverse_cons, List.find?_append, List.find?_append, hnone]
    simp
  · intro h
    obtain ⟨c, hc, rfl⟩ := Option.map_eq_some_iff.1 h
    obtain ⟨hid, behind, ahead, hcalls, hbehind⟩ := List.find?_eq_some_iff_append.1 hc
    refine ⟨ahead.reverse, c.2.2, behind.reverse, ?_, fun c' hc' => ?_⟩
    · rw [← List.reverse_reverse calls, hcalls, List.reverse_append, List.reverse_cons,
        List.append_assoc, ← of_decide_eq_true hid]
      rfl
    · simpa using hbehind c' (List.mem_reverse.1 hc')

theorem toolCalls_append (role : Role) (content content' : List ContentPart) :
    (⟨role, content ++ content'⟩ : Message).toolCalls =
      (⟨role, content⟩ : Message).toolCalls ++ (⟨role, content'⟩ : Message).toolCalls :=
  List.filterMap_append

namespace ResultAt

variable {messages : List Message} (p : ResultAt messages)

theorem calls_eq : messages.flatMap Message.toolCalls = p.earlier ++ p.later := by
  have hresult : (⟨p.role, .toolResult p.id p.result p.isError :: p.post⟩ : Message).toolCalls =
      (⟨p.role, p.post⟩ : Message).toolCalls := rfl
  refine (congrArg (·.flatMap Message.toolCalls) p.found).trans ?_
  rw [List.flatMap_append, List.flatMap_cons, toolCalls_append, hresult]
  unfold earlier later
  simp only [List.append_assoc]

/-- The name that the converter finds: that of the last call after the result, or before it. -/
theorem toolCallName_eq :
    toolCallName messages p.id =
      ((p.later.reverse.find? (·.1 = p.id)).map (·.2.1)).or
        ((p.earlier.reverse.find? (·.1 = p.id)).map (·.2.1)) := by
  rw [toolCallName, p.calls_eq, List.reverse_append, List.find?_append, Option.map_or]

/-- A part comes through whatever the names are. -/
theorem partToVx_isSome (nameOf nameOf' : String → Option String) (part : ContentPart) :
    (partToVx nameOf part).isSome = (partToVx nameOf' part).isSome := by
  cases part with
  | toolResult => rfl
  | text | toolCall | image | imageUrl => rfl

theorem length_parts (nameOf nameOf' : String → Option String) (parts : List ContentPart) :
    (parts.filterMap (partToVx nameOf)).length = (parts.filterMap (partToVx nameOf')).length := by
  rw [List.length_filterMap_eq_countP, List.length_filterMap_eq_countP]
  exact List.countP_congr fun part _ => by rw [partToVx_isSome nameOf nameOf']

theorem getElem?_filterMap {α β : Type} {f : α → Option β} {a : α} {b : β} (h : f a = some b)
    (pre post : List α) : ((pre ++ a :: post).filterMap f)[(pre.filterMap f).length]? = some b := by
  rw [List.filterMap_append, List.filterMap_cons_some h, List.getElem?_append_right (Nat.le_refl _),
    Nat.sub_self]
  rfl

theorem getElem?_map_filter {α β : Type} {q : α → Bool} {a : α} (h : q a = true) (f : α → β)
    (pre post : List α) :
    (((pre ++ a :: post).filter q).map f)[(pre.filter q).length]? = some (f a) := by
  rw [List.filter_append, List.filter_cons_of_pos h, List.map_append, List.map_cons,
    List.getElem?_append_right (by rw [List.length_map]), List.length_map, Nat.sub_self]
  rfl

/-- The function response in the result's place has the name that the converter finds. -/
theorem emits_iff (req : ChatRequest) (p : ResultAt req.messages) (name : String) :
    p.Emits (toVertexRequest req) name ↔
      (toolCallName req.messages p.id).getD p.id = name := by
  have hcontent : (toVertexRequest req).contents[(p.before.filter (·.role ≠ .system)).length]? =
      some (messageToVx (toolCallName req.messages)
        ⟨p.role, p.pre ++ .toolResult p.id p.result p.isError :: p.post⟩) := by
    refine (congrArg (fun messages : List Message =>
      ((messages.filter (·.role ≠ .system)).map (messageToVx (toolCallName req.messages)))[
        (p.before.filter (·.role ≠ .system)).length]?) p.found).trans ?_
    exact getElem?_map_filter (q := fun m : Message => m.role ≠ .system) (decide_eq_true p.sent)
      _ _ _
  have hpart : (messageToVx (toolCallName req.messages)
      ⟨p.role, p.pre ++ .toolResult p.id p.result p.isError :: p.post⟩).parts[
        (p.pre.filterMap (partToVx fun _ => none)).length]? =
      some (.functionResponse ((toolCallName req.messages p.id).getD p.id) p.result) := by
    have hresult : partToVx (toolCallName req.messages) (.toolResult p.id p.result p.isError) =
        some (.functionResponse ((toolCallName req.messages p.id).getD p.id) p.result) := rfl
    rw [length_parts _ (toolCallName req.messages)]
    exact getElem?_filterMap hresult _ _
  constructor
  · rintro ⟨content, hwire, hname⟩
    rw [hcontent] at hwire
    cases hwire
    rw [hpart] at hname
    cases hname
    rfl
  · rintro rfl
    exact ⟨_, hcontent, hpart⟩

/-- The right name is found exactly if no later call with the id has another one. -/
theorem emits_earlier_iff (req : ChatRequest) (p : ResultAt req.messages) (name : String)
    (hname : LastCall p.earlier p.id name) :
    p.Emits (toVertexRequest req) name ↔
      ∀ name', LastCall p.later p.id name' → name' = name := by
  rw [emits_iff, toolCallName_eq, lastCall_iff.1 hname]
  simp only [lastCall_iff]
  cases (p.later.reverse.find? (·.1 = p.id)).map (·.2.1) with
  | none => exact iff_of_true rfl fun _ h => by cases h
  | some name' =>
    constructor
    · intro heq name'' h
      exact (Option.some.inj h).symm.trans heq
    · exact fun h => h name' rfl

end ResultAt

/-- The calls of a conversation keep their identity exactly if no two calls of an answer of Vertex
have one digest, and no id of a result is that of a call for another function behind it. -/
theorem identity_iff (E : Vertex.Env) (entries : List Entry) (req : ChatRequest) :
    Identity E entries (toVertexRequest { req with messages := conversation E entries }) ↔
      (∀ resp, .vertex resp ∈ entries → ((answerCalls resp).map (digest E)).Nodup) ∧
        ∀ (p : ResultAt (conversation E entries)) (name name' : String),
          LastCall p.earlier p.id name → LastCall p.later p.id name' → name' = name := by
  let sent : ChatRequest := { req with messages := conversation E entries }
  constructor
  · intro h
    refine ⟨(distinct_iff E entries).1 h.distinct, fun p name name' hname hlater => ?_⟩
    exact (ResultAt.emits_earlier_iff sent p name hname).1 (h.names p name hname) name' hlater
  · intro h
    refine ⟨(distinct_iff E entries).2 h.1, fun p name hname => ?_⟩
    exact (ResultAt.emits_earlier_iff sent p name hname).2 fun name' => h.2 p name name' hname

/-! ## A file that is read and then written -/

def fileCall (name : String) : Entry :=
  .ollama { message := { toolCalls := [⟨⟨name, .object []⟩⟩] }, done := true }

def fileResult : Entry := .other ⟨.user, [.toolResult "ol_call_0" .null false]⟩

def readThenWrite : List Entry := [fileCall "read", fileResult, fileCall "write", fileResult]

def noVertex : Vertex.Env where
  parse _ := .error "expected value"
  text _ := "\x7b\x7d"
  hash _ _ := 0

/-- The result of reading is sent as one of writing. -/
theorem readThenWrite_misnamed :
    ¬Identity noVertex readThenWrite
      (toVertexRequest { model := "m", messages := conversation noVertex readThenWrite }) := by
  intro h
  let p : ResultAt (conversation noVertex readThenWrite) :=
    { before := [⟨.assistant, [.toolCall "ol_call_0" "read" (.object [])]⟩]
      role := .user
      pre := []
      id := "ol_call_0"
      result := .null
      isError := false
      post := []
      after := [⟨.assistant, [.toolCall "ol_call_0" "write" (.object [])]⟩,
        ⟨.user, [.toolResult "ol_call_0" .null false]⟩]
      sent := by decide
      found := rfl }
  have hread : LastCall p.earlier p.id "read" := ⟨[], .object [], [], rfl, fun _ hc => by cases hc⟩
  obtain ⟨content, hcontent, hpart⟩ := h.names p "read" hread
  cases hcontent
  have hname : VxPart.functionResponse "write" .null = .functionResponse "read" .null :=
    Option.some.inj hpart
  injection hname with hname
  exact absurd hname (by decide)

end Tako.Providers.ToolIds
