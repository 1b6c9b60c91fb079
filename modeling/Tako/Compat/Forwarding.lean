import Tako.Compat.Routes

/-!
# What the orchestrator is told of a conversation

The whole of a request's messages is converted, then its last user message alone is the prompt
(`tako-compat/src/routes.rs`). A request with a content in parts is not forwarded at all. So the
orchestrator is never told of a whole conversation, and a changed message shows exactly if it is the
last one of the user (`conversation_forwarded_iff`).
-/

namespace Tako.Compat

open Orchestrator

/-! ## Requests as clients write them -/

/-- The protocol also allows an array of parts as a content. -/
inductive WireContent where
  | text (s : String)
  | parts (items : List Json)

structure WireMessage where
  role : String
  content : Option WireContent
  toolCallId : Option String := none

structure WireRequest where
  model : String
  messages : List WireMessage
  temperature : Option Rat := none
  maxTokens : Option UInt32 := none
  stop : Option OaStop := none
  stream : Bool := false

/-- The `text` of a part. -/
def partText : Json → Option String
  | .object members =>
    match members.lookup "text" with
    | some (.string s) => some s
    | _ => none
  | _ => none

def WireContent.texts : WireContent → List String
  | .text s => if s = "" then [] else [s]
  | .parts items => items.filterMap partText

def textsOfContent (content : Option WireContent) : List String :=
  content.toList.flatMap WireContent.texts

/-- All texts of a conversation with their roles, in order. -/
def WireRequest.texts (req : WireRequest) : List (String × String) :=
  req.messages.flatMap fun m => (textsOfContent m.content).map (m.role, ·)

def WireMessage.HasParts (m : WireMessage) : Prop := ∃ items, m.content = some (.parts items)

/-! ## What reaches the orchestrator -/

/-- `OaMessage: Deserialize`. An array is not the string that `content` has to be. -/
def OaMessage.deserialize (m : WireMessage) : Option OaMessage :=
  match m.content with
  | none => some ⟨m.role, none, m.toolCallId⟩
  | some (.text s) => some ⟨m.role, some s, m.toolCallId⟩
  | some (.parts _) => none

/-- `OaChatRequest: Deserialize`. -/
def OaChatRequest.deserialize (req : WireRequest) : Option OaChatRequest := do
  let messages ← req.messages.mapM OaMessage.deserialize
  some
    { model := req.model, messages, temperature := req.temperature, maxTokens := req.maxTokens
      stop := req.stop, stream := req.stream }

/-- What the orchestrator receives of an authenticated request, if anything. -/
def received (req : WireRequest) : Option OrchInput :=
  (OaChatRequest.deserialize req).map orchInput

/-- The request reaches the orchestrator, and all that reach it as the same input have its texts. -/
def Determines (req : WireRequest) : Prop :=
  ∃ input, received req = some input ∧ ∀ req', received req' = some input → req'.texts = req.texts

/-- Two requests that differ in what one message says. -/
structure Edit where
  request : WireRequest
  before : List WireMessage
  role : String
  toolCallId : Option String := none
  old : Option WireContent
  new : Option WireContent
  after : List WireMessage
  differs : textsOfContent old ≠ textsOfContent new

namespace Edit

def withContent (e : Edit) (content : Option WireContent) : WireRequest :=
  { e.request with messages := e.before ++ ⟨e.role, content, e.toolCallId⟩ :: e.after }

def first (e : Edit) : WireRequest := e.withContent e.old

def second (e : Edit) : WireRequest := e.withContent e.new

/-- The two never reach the orchestrator as the same input. -/
def Seen (e : Edit) : Prop :=
  ∀ input, ¬(received e.first = some input ∧ received e.second = some input)

end Edit

/-- Every role that is not one of the other three is the user's. -/
def IsUser (role : String) : Prop := role ∉ ["system", "assistant", "tool"]

instance (role : String) : Decidable (IsUser role) :=
  inferInstanceAs (Decidable (role ∉ ["system", "assistant", "tool"]))

/-- The edited message is the last one of the user. -/
def Edit.OfPrompt (e : Edit) : Prop := IsUser e.role ∧ ∀ m ∈ e.after, ¬IsUser m.role

/-- One of the two has an array for a content. -/
def Edit.Rejected (e : Edit) : Prop :=
  (∃ m ∈ e.first.messages, m.HasParts) ∨ ∃ m ∈ e.second.messages, m.HasParts

/-! ## What is converted -/

theorem toMessage_role {m : OaMessage} : m.toMessage.role = .user ↔ IsUser m.role := by
  unfold OaMessage.toMessage IsUser
  dsimp only
  split <;> simp_all

/-- The content of a message, or an empty text. -/
def OaMessage.text (m : OaMessage) : String := m.content.getD ""

theorem toMessage_asText (m : OaMessage) :
    (m.toMessage.content.findSome? ContentPart.asText).getD "" = m.text := by
  unfold OaMessage.toMessage OaMessage.text
  dsimp only
  cases m.content with
  | none => rfl
  | some s =>
    by_cases hs : s = ""
    · simp [hs]
    · simp [hs, ContentPart.asText]

/-- The text of the last message of the user. -/
def promptOf (messages : List OaMessage) : String :=
  (messages.reverse.find? (IsUser ·.role)).elim "" OaMessage.text

theorem promptOf_append (messages : List OaMessage) (m : OaMessage) (later : List OaMessage) :
    promptOf (messages ++ m :: later) =
      if ∃ x ∈ later, IsUser x.role then promptOf later
      else if IsUser m.role then m.text
      else promptOf messages := by
  unfold promptOf
  rw [List.reverse_append, List.reverse_cons, List.append_assoc, List.find?_append]
  split
  · next h =>
    obtain ⟨x, hx, huser⟩ := h
    have hsome : (later.reverse.find? (IsUser ·.role)).isSome :=
      List.find?_isSome.2 ⟨x, List.mem_reverse.2 hx, by simpa using huser⟩
    obtain ⟨y, hy⟩ := Option.isSome_iff_exists.1 hsome
    rw [hy]
    rfl
  · next h =>
    have hnone : later.reverse.find? (IsUser ·.role) = none :=
      List.find?_eq_none.2 fun x hx huser =>
        h ⟨x, List.mem_reverse.1 hx, by simpa using huser⟩
    rw [hnone]
    by_cases hm : IsUser m.role <;> simp [hm]

theorem orchInput_eq (body : OaChatRequest) :
    orchInput body = ⟨[.user (promptOf body.messages)], none⟩ := by
  have hfind : ((body.messages.map OaMessage.toMessage).reverse.find? (·.role = .user)) =
      (body.messages.reverse.find? (IsUser ·.role)).map OaMessage.toMessage := by
    rw [← List.map_reverse, List.find?_map]
    congr 2
    funext m
    simp [toMessage_role]
  unfold orchInput extractUserPrompt promptOf fromOpenaiRequest
  dsimp only
  rw [hfind]
  cases body.messages.reverse.find? (IsUser ·.role) with
  | none => rfl
  | some m => simp [toMessage_asText]

/-! ## What is received -/

theorem deserialize_eq_none {m : WireMessage} : OaMessage.deserialize m = none ↔ m.HasParts := by
  unfold OaMessage.deserialize WireMessage.HasParts
  split <;> simp_all

/-- The message as it is deserialized; a content in parts is dropped here. -/
def WireMessage.oa (m : WireMessage) : OaMessage where
  role := m.role
  content := (OaMessage.deserialize m).bind (·.content)
  toolCallId := m.toolCallId

theorem deserialize_eq_some {m : WireMessage} (h : ¬m.HasParts) :
    OaMessage.deserialize m = some m.oa := by
  unfold WireMessage.oa
  unfold OaMessage.deserialize at *
  unfold WireMessage.HasParts at h
  split <;> simp_all

theorem mapM_deserialize {messages : List WireMessage} (h : ∀ m ∈ messages, ¬m.HasParts) :
    messages.mapM OaMessage.deserialize = some (messages.map WireMessage.oa) := by
  induction messages with
  | nil => rfl
  | cons m messages ih =>
    obtain ⟨hm, hmessages⟩ := List.forall_mem_cons.1 h
    rw [List.mapM_cons, deserialize_eq_some hm, ih hmessages]
    rfl

theorem received_eq_some {req : WireRequest} (h : ∀ m ∈ req.messages, ¬m.HasParts) :
    received req = some ⟨[.user (promptOf (req.messages.map WireMessage.oa))], none⟩ := by
  unfold received OaChatRequest.deserialize
  rw [mapM_deserialize h]
  exact congrArg some (orchInput_eq _)

theorem mapM_deserialize_eq_none {messages : List WireMessage} (h : ∃ m ∈ messages, m.HasParts) :
    messages.mapM OaMessage.deserialize = none := by
  induction messages with
  | nil => exact absurd h (by simp)
  | cons m messages ih =>
    rw [List.mapM_cons]
    by_cases hm : m.HasParts
    · rw [deserialize_eq_none.2 hm]
      rfl
    · obtain ⟨x, hx, hparts⟩ := h
      obtain rfl | hx := List.mem_cons.1 hx
      · exact absurd hparts hm
      · rw [deserialize_eq_some hm, ih ⟨x, hx, hparts⟩]
        rfl

theorem received_eq_none {req : WireRequest} (h : ∃ m ∈ req.messages, m.HasParts) :
    received req = none := by
  unfold received OaChatRequest.deserialize
  rw [mapM_deserialize_eq_none h]
  rfl

theorem oa_text {m : WireMessage} (h : ¬m.HasParts) :
    textsOfContent m.content = if m.oa.text = "" then [] else [m.oa.text] := by
  unfold WireMessage.HasParts at h
  unfold textsOfContent WireMessage.oa OaMessage.text OaMessage.deserialize
  cases hcontent : m.content with
  | none => rfl
  | some content =>
    cases content with
    | text s => simp [WireContent.texts]
    | parts items => exact absurd ⟨items, hcontent⟩ h

/-- Messages without parts have the same texts exactly if they are deserialized with the same. -/
theorem oa_text_eq_iff {m m' : WireMessage} (h : ¬m.HasParts) (h' : ¬m'.HasParts) :
    m.oa.text = m'.oa.text ↔ textsOfContent m.content = textsOfContent m'.content := by
  rw [oa_text h, oa_text h']
  by_cases hm : m.oa.text = "" <;> by_cases hm' : m'.oa.text = "" <;> simp [hm, hm', eq_comm]

/-! ## What the orchestrator is told -/

theorem promptOf_cons_of_not_user {m : OaMessage} (h : ¬IsUser m.role)
    (messages : List OaMessage) : promptOf (m :: messages) = promptOf messages := by
  unfold promptOf
  rw [List.reverse_cons, List.find?_append, List.find?_singleton]
  simp [h]

def WireRequest.withSystem (req : WireRequest) (text : String) : WireRequest :=
  { req with messages := ⟨"system", some (.text text), none⟩ :: req.messages }

/-- A system message in front changes nothing of the input. -/
theorem received_withSystem {req : WireRequest} (h : ∀ m ∈ req.messages, ¬m.HasParts)
    (text : String) : received (req.withSystem text) = received req := by
  have hsystem : ¬(⟨"system", some (.text text), none⟩ : WireMessage).HasParts :=
    fun ⟨_, hparts⟩ => by cases hparts
  have hall : ∀ m ∈ (req.withSystem text).messages, ¬m.HasParts :=
    List.forall_mem_cons.2 ⟨hsystem, h⟩
  have huser : ¬IsUser "system" := by decide
  rw [received_eq_some h, received_eq_some hall, WireRequest.withSystem, List.map_cons,
    promptOf_cons_of_not_user huser]

theorem not_determines (req : WireRequest) : ¬Determines req := by
  rintro ⟨input, hreq, hsame⟩
  have hplain : ∀ m ∈ req.messages, ¬m.HasParts := by
    intro m hm hparts
    rw [received_eq_none ⟨m, hm, hparts⟩] at hreq
    cases hreq
  have htexts : (req.withSystem "Be brief.").texts = req.texts :=
    hsame _ ((received_withSystem hplain _).trans hreq)
  have hcons : (req.withSystem "Be brief.").texts = ("system", "Be brief.") :: req.texts := rfl
  exact List.cons_ne_self _ _ (hcons.symm.trans htexts)

namespace Edit

variable (e : Edit)

theorem received_withContent {content : Option WireContent}
    (h : ∀ m ∈ (e.withContent content).messages, ¬m.HasParts) :
    received (e.withContent content) = some ⟨[.user
      (if ∃ m ∈ e.after, IsUser m.role then promptOf (e.after.map WireMessage.oa)
        else if IsUser e.role then (WireMessage.oa ⟨e.role, content, e.toolCallId⟩).text
        else promptOf (e.before.map WireMessage.oa))], none⟩ := by
  rw [received_eq_some h]
  have hafter : (∃ x ∈ e.after.map WireMessage.oa, IsUser x.role) ↔
      ∃ m ∈ e.after, IsUser m.role := by
    simp [WireMessage.oa]
  rw [withContent, List.map_append, List.map_cons, promptOf_append]
  simp only [hafter]
  rfl

theorem seen_iff : e.Seen ↔ e.Rejected ∨ e.OfPrompt := by
  by_cases hrejected : e.Rejected
  · refine iff_of_true (fun input hinput => ?_) (.inl hrejected)
    obtain h | h := hrejected
    · rw [received_eq_none h] at hinput
      exact absurd hinput.1 (by simp)
    · rw [received_eq_none h] at hinput
      exact absurd hinput.2 (by simp)
  · have hfirst : ∀ m ∈ e.first.messages, ¬m.HasParts := fun m hm h =>
      hrejected (.inl ⟨m, hm, h⟩)
    have hsecond : ∀ m ∈ e.second.messages, ¬m.HasParts := fun m hm h =>
      hrejected (.inr ⟨m, hm, h⟩)
    have hold : ¬(⟨e.role, e.old, e.toolCallId⟩ : WireMessage).HasParts :=
      hfirst _ (List.mem_append_right _ List.mem_cons_self)
    have hnew : ¬(⟨e.role, e.new, e.toolCallId⟩ : WireMessage).HasParts :=
      hsecond _ (List.mem_append_right _ List.mem_cons_self)
    have hne := mt (oa_text_eq_iff hold hnew).1 e.differs
    unfold Seen OfPrompt
    rw [first, second] at *
    rw [e.received_withContent hfirst, e.received_withContent hsecond]
    by_cases hafter : ∃ m ∈ e.after, IsUser m.role
    · have hnot : ¬∀ m ∈ e.after, ¬IsUser m.role := fun h =>
        hafter.elim fun m hm => h m hm.1 hm.2
      simp [hafter, hrejected, hnot]
    · have hall : ∀ m ∈ e.after, ¬IsUser m.role := fun m hm h => hafter ⟨m, hm, h⟩
      by_cases hrole : IsUser e.role
      · refine iff_of_true (fun input h => hne ?_) (.inr ⟨hrole, hall⟩)
        simpa [hafter, hrole, Message.user] using h.1.trans h.2.symm
      · simp [hafter, hrole, hrejected]

end Edit

/-- What the orchestrator receives determines the texts of no request, and of two requests that
differ in one message it can tell exactly those that differ in the prompt. -/
theorem conversation_forwarded_iff (req : WireRequest) (e : Edit) :
    ¬Determines req ∧ (e.Seen ↔ e.Rejected ∨ e.OfPrompt) :=
  ⟨not_determines req, e.seen_iff⟩

/-- The user's question after a system message. -/
def greeting (system : WireContent) : WireRequest where
  model := "tako"
  messages := [⟨"system", some system, none⟩, ⟨"user", some (.text "Hello"), none⟩]

/-- Two system prompts in front of the same question, and one that is an array of parts. -/
theorem conversation_not_forwarded :
    (¬∀ req req' input, received req = some input → received req' = some input →
      req'.texts = req.texts) ∧
      ¬∀ req, Determines req := by
  constructor
  · intro h
    have htexts := h (greeting (.text "Be brief.")) (greeting (.text "Answer in French."))
      ⟨[.user "Hello"], none⟩ rfl rfl
    exact absurd htexts (by decide)
  · intro h
    obtain ⟨input, hnone, -⟩ :=
      h (greeting (.parts [.object [("type", .string "text"), ("text", .string "Be brief.")]]))
    cases hnone

end Tako.Compat
