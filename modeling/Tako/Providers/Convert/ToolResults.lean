import Mathlib.Data.List.Basic
import Tako.Orchestrator.Loop
import Tako.Providers.Convert.Ollama
import Tako.Providers.Convert.OpenAi

/-!
# Tool results on the wire

OpenAI, Mistral and Ollama want one message with the role `tool` for each tool result. Their
converters turn each message into one message of its own role, with the last of its tool results in
place of its text. So the results arrive where each stands alone in a message of the role `tool`,
but an agent puts all the results of a turn into one message of the user.
-/

namespace Tako

/-- The id and the value of a tool result. -/
def ContentPart.asToolResult : ContentPart → Option (String × Json)
  | .toolResult id result _ => some (id, result)
  | _ => none

def toolResults (parts : List ContentPart) : List (String × Json) :=
  parts.filterMap ContentPart.asToolResult

theorem filterMap_concat {α β : Type} (f : α → Option β) (l : List α) (a : α) :
    (l ++ [a]).filterMap f = l.filterMap f ++ (f a).toList := by
  rw [List.filterMap_append]
  cases h : f a <;> simp [h]

/-- The message is one tool result, or has none. -/
def Message.Alone (m : Message) : Prop :=
  (m.role = .tool → ∃ r, toolResults m.content = [r] ∧ m.text = "") ∧
    (m.role ≠ .tool → toolResults m.content = [])

namespace Providers

/-- What is to be seen of a message on the wire. -/
structure WireView (ω : Type) where
  role : ω → String
  callId : ω → Option String
  result : ω → Option String
  /-- The text, where the message is not a tool result. -/
  text : ω → String

/-- One wire message of the role `tool` for each tool result, in order, with its id and its value,
and all of the text. -/
structure Delivers {ω : Type} (V : WireView ω) (toText : Json → String) (messages : List Message)
    (wire : List ω) : Prop where
  results : (wire.filter (V.role · = "tool")).map (fun w => (V.callId w, V.result w)) =
    (messages.flatMap fun m => toolResults m.content).map fun r => (some r.1, some (toText r.2))
  text : String.join (wire.map V.text) = String.join (messages.map Message.text)

/-! ## Lists as long as each other -/

section
variable {α β γ : Type} {F : α → List β} {G : α → List γ} {l : List α}

theorem length_flatMap_le (h : ∀ a ∈ l, (F a).length ≤ (G a).length) :
    (l.flatMap F).length ≤ (l.flatMap G).length := by
  induction l with
  | nil => exact Nat.le_refl 0
  | cons a l ih =>
    rw [List.flatMap_cons, List.flatMap_cons, List.length_append, List.length_append]
    exact Nat.add_le_add (h a List.mem_cons_self) (ih fun b hb => h b (List.mem_cons_of_mem a hb))

/-- If no part is longer than its counterpart, the whole is as long only if each part is. -/
theorem length_eq_of_flatMap (h : ∀ a ∈ l, (F a).length ≤ (G a).length)
    (heq : (l.flatMap F).length = (l.flatMap G).length) : ∀ a ∈ l, (F a).length = (G a).length := by
  induction l with
  | nil => exact fun a ha => nomatch ha
  | cons b l ih =>
    have hhead := h b List.mem_cons_self
    have htail : ∀ a ∈ l, (F a).length ≤ (G a).length := fun a ha =>
      h a (List.mem_cons_of_mem b ha)
    have hle := length_flatMap_le htail
    rw [List.flatMap_cons, List.flatMap_cons, List.length_append, List.length_append] at heq
    exact List.forall_mem_cons.2 ⟨by omega, ih htail (by omega)⟩

end

theorem join_map_eq_iff {α : Type} {f g : α → String} {l : List α}
    (h : ∀ a ∈ l, f a = g a ∨ f a = "") :
    String.join (l.map f) = String.join (l.map g) ↔ ∀ a ∈ l, f a = g a := by
  refine ⟨fun heq => ?_, fun heq => congrArg String.join (List.map_congr_left heq)⟩
  have hlen : (l.flatMap fun a => (f a).toList).length =
      (l.flatMap fun a => (g a).toList).length := by
    have hlist := congrArg String.toList heq
    rw [String.toList_join, String.toList_join, List.flatMap_map, List.flatMap_map] at hlist
    exact congrArg List.length hlist
  intro a ha
  rcases h a ha with hsame | hnone
  · exact hsame
  · have hlength := length_eq_of_flatMap (fun b hb => ?_) hlen a ha
    · rw [hnone] at hlength ⊢
      exact (String.toList_eq_nil_iff.1 (List.eq_nil_of_length_eq_zero hlength.symm)).symm
    · rcases h b hb with hb | hb <;> rw [hb]
      exact Nat.zero_le _

/-! ## Converters that keep the last result -/

/-- A converter of single messages: the role stays, the last tool result comes through, and the
text comes through if there is none. -/
structure KeepsLast {ω : Type} (V : WireView ω) (toText : Json → String) (encode : Message → ω) :
    Prop where
  role : ∀ m, V.role (encode m) = roleToStr m.role
  callId : ∀ m, V.callId (encode m) = (toolResults m.content).getLast?.map (·.1)
  result : ∀ m r, (toolResults m.content).getLast? = some r →
    V.result (encode m) = some (toText r.2)
  text : ∀ m, V.text (encode m) = if toolResults m.content = [] then m.text else ""

section
variable {ω : Type} {V : WireView ω} {toText : Json → String} {encode : Message → ω}

theorem filter_role (h : KeepsLast V toText encode) (messages : List Message) :
    (messages.map encode).filter (V.role · = "tool") =
      (messages.filter (·.role = .tool)).map encode := by
  rw [List.filter_map]
  refine congrArg _ (List.filter_congr fun m _ => ?_)
  rw [Function.comp, h.role]
  exact decide_eq_decide.2 roleToStr_eq_tool

theorem filter_tool_pos {m : Message} (h : m.role = .tool) (messages : List Message) :
    (m :: messages).filter (·.role = .tool) = m :: messages.filter (·.role = .tool) := by
  simp [h]

theorem filter_tool_neg {m : Message} (h : m.role ≠ .tool) (messages : List Message) :
    (m :: messages).filter (·.role = .tool) = messages.filter (·.role = .tool) := by
  simp [h]

theorem results_of_alone (h : KeepsLast V toText encode) {messages : List Message}
    (halone : ∀ m ∈ messages, (m.role = .tool → ∃ r, toolResults m.content = [r]) ∧
      (m.role ≠ .tool → toolResults m.content = [])) :
    (messages.filter (·.role = .tool)).map
        (fun m => (V.callId (encode m), V.result (encode m))) =
      (messages.flatMap fun m => toolResults m.content).map
        (fun r => (some r.1, some (toText r.2))) := by
  induction messages with
  | nil => rfl
  | cons m messages ih =>
    obtain ⟨htool, hother⟩ := halone m List.mem_cons_self
    have ih := ih fun m' hm => halone m' (List.mem_cons_of_mem m hm)
    rw [List.flatMap_cons, List.map_append, ← ih]
    by_cases hrole : m.role = .tool
    · obtain ⟨r, hr⟩ := htool hrole
      rw [filter_tool_pos hrole, List.map_cons, h.callId, hr,
        h.result m r (by rw [hr]; rfl)]
      rfl
    · rw [filter_tool_neg hrole, hother hrole]
      rfl

/-- The results arrive exactly if each stands alone in a message of the role `tool`. -/
theorem results_iff (h : KeepsLast V toText encode) (messages : List Message) :
    ((messages.map encode).filter (V.role · = "tool")).map (fun w => (V.callId w, V.result w)) =
        (messages.flatMap fun m => toolResults m.content).map
          (fun r => (some r.1, some (toText r.2))) ↔
      ∀ m ∈ messages, (m.role = .tool → ∃ r, toolResults m.content = [r]) ∧
        (m.role ≠ .tool → toolResults m.content = []) := by
  rw [filter_role h, List.map_map]
  refine ⟨fun heq => ?_, results_of_alone h⟩
  -- each message of the role `tool` has a result, so there are no more of them than results
  have hsome : ∀ m ∈ messages, m.role = .tool → toolResults m.content ≠ [] := by
    intro m hm hrole hnil
    have hmem : m ∈ messages.filter (·.role = .tool) :=
      List.mem_filter.2 ⟨hm, decide_eq_true hrole⟩
    have hmem := List.mem_map_of_mem (f := (fun w => (V.callId w, V.result w)) ∘ encode) hmem
    rw [heq] at hmem
    obtain ⟨r, -, hr⟩ := List.mem_map.1 hmem
    have hid := (Prod.mk.inj hr).1
    rw [h.callId, hnil] at hid
    cases hid
  have hle : ∀ m ∈ messages,
      ([m].filter (·.role = .tool)).length ≤ (toolResults m.content).length := by
    intro m hm
    by_cases hrole : m.role = .tool
    · rw [filter_tool_pos hrole]
      exact List.length_pos_iff.2 (hsome m hm hrole)
    · rw [filter_tool_neg hrole]
      exact Nat.zero_le _
  have hlength := congrArg List.length heq
  rw [List.length_map, List.length_map, ← List.flatMap_singleton' messages, List.filter_flatMap,
    List.flatMap_singleton'] at hlength
  intro m hm
  have hm' := length_eq_of_flatMap hle hlength m hm
  refine ⟨fun hrole => ?_, fun hrole => ?_⟩
  · rw [filter_tool_pos hrole] at hm'
    exact List.length_eq_one_iff.1 hm'.symm
  · rw [filter_tool_neg hrole] at hm'
    exact List.eq_nil_of_length_eq_zero hm'.symm

/-- A converter that keeps the last result delivers exactly the messages that are one result or have
none. -/
theorem delivers_iff (h : KeepsLast V toText encode) (messages : List Message) :
    Delivers V toText messages (messages.map encode) ↔ ∀ m ∈ messages, m.Alone := by
  have htext : ∀ m ∈ messages, (V.text ∘ encode) m = m.text ∨ (V.text ∘ encode) m = "" := by
    intro m _
    rw [Function.comp, h.text]
    split
    · exact .inl rfl
    · exact .inr rfl
  constructor
  · rintro ⟨hresults, hall⟩ m hm
    rw [List.map_map, join_map_eq_iff htext] at hall
    obtain ⟨htool, hother⟩ := (results_iff h messages).1 hresults m hm
    refine ⟨fun hrole => ?_, hother⟩
    obtain ⟨r, hr⟩ := htool hrole
    have hm := hall m hm
    rw [Function.comp, h.text, hr, if_neg (List.cons_ne_nil r [])] at hm
    exact ⟨r, hr, hm.symm⟩
  · intro halone
    refine ⟨(results_iff h messages).2 fun m hm => ⟨fun hrole => ?_, (halone m hm).2⟩, ?_⟩
    · obtain ⟨r, hr, -⟩ := (halone m hm).1 hrole
      exact ⟨r, hr⟩
    · rw [List.map_map, join_map_eq_iff htext]
      intro m hm
      rw [Function.comp, h.text]
      split
      · rfl
      · next hne =>
        by_cases hrole : m.role = .tool
        · obtain ⟨r, -, htext⟩ := (halone m hm).1 hrole
          exact htext.symm
        · exact absurd ((halone m hm).2 hrole) hne

end

/-! ## The three converters -/

def OpenAi.OaContentBlock.asText : OpenAi.OaContentBlock → Option String
  | .text s => some s
  | .imageUrl _ => none

/-- The text of a `content` field. -/
def OpenAi.OaContent.plain : OpenAi.OaContent → String
  | .text s => s
  | .blocks bs => String.join (bs.filterMap OpenAi.OaContentBlock.asText)

/-- A message of OpenAI or Mistral is a tool result if it has a call id. -/
def oaView : WireView OpenAi.OaMessage where
  role := (·.role)
  callId := (·.toolCallId)
  result w := w.content.map (·.plain)
  text w := if w.toolCallId.isSome then "" else (w.content.map (·.plain)).getD ""

/-- No message of Ollama has a call id. -/
def olView : WireView Ollama.OlMessage where
  role := (·.role)
  callId _ := none
  result w := some w.content
  text w := if w.role = "tool" then "" else w.content

section
variable (supported : String → Bool) (toText : Json → String)

/-- What the pass of OpenAI's converter has collected of the results and the texts. -/
structure OpenAi.Collected.Of (parts : List ContentPart) (c : OpenAi.Collected) : Prop where
  toolCallId : c.toolCallId = (toolResults parts).getLast?.map (·.1)
  toolResultContent : c.toolResultContent = (toolResults parts).getLast?.map (toText ·.2)
  textParts : c.textParts = parts.filterMap ContentPart.asText
  blocks : c.blocks.filterMap OaContentBlock.asText = parts.filterMap ContentPart.asText

variable {toText} in
/-- A part that is neither a text nor a result. -/
theorem OpenAi.Collected.Of.skip {parts : List ContentPart} {part : ContentPart}
    {c c' : OpenAi.Collected} (h : Collected.Of toText parts c) (hresult : part.asToolResult = none)
    (htext : part.asText = none) (hid : c'.toolCallId = c.toolCallId)
    (hcontent : c'.toolResultContent = c.toolResultContent) (htexts : c'.textParts = c.textParts)
    (hblocks : c'.blocks.filterMap OaContentBlock.asText =
      c.blocks.filterMap OaContentBlock.asText) :
    Collected.Of toText (parts ++ [part]) c' := by
  have hresults : toolResults (parts ++ [part]) = toolResults parts := by
    rw [toolResults, filterMap_concat, hresult]
    exact List.append_nil _
  have hpart : (parts ++ [part]).filterMap ContentPart.asText =
      parts.filterMap ContentPart.asText := by
    rw [filterMap_concat, htext]
    exact List.append_nil _
  refine ⟨?_, ?_, ?_, ?_⟩
  · rw [hid, hresults, h.toolCallId]
  · rw [hcontent, hresults, h.toolResultContent]
  · rw [htexts, hpart, h.textParts]
  · rw [hblocks, hpart, h.blocks]

variable {toText} in
theorem OpenAi.Collected.Of.add {parts : List ContentPart} {c : OpenAi.Collected}
    (h : Collected.Of toText parts c) (part : ContentPart) :
    Collected.Of toText (parts ++ [part]) (c.add supported toText part) := by
  cases part with
  | text s =>
    have hresults : toolResults (parts ++ [.text s]) = toolResults parts := by
      rw [toolResults, filterMap_concat]
      exact List.append_nil _
    refine ⟨hresults ▸ h.toolCallId, hresults ▸ h.toolResultContent, ?_, ?_⟩ <;>
      rw [filterMap_concat]
    · exact congrArg (· ++ [s]) h.textParts
    · exact (filterMap_concat _ _ _).trans (congrArg (· ++ [s]) h.blocks)
  | toolResult id result isError =>
    have hresults : toolResults (parts ++ [.toolResult id result isError]) =
        toolResults parts ++ [(id, result)] := filterMap_concat _ _ _
    refine ⟨?_, ?_, ?_, ?_⟩
    · rw [hresults, List.getLast?_concat]
      rfl
    · rw [hresults, List.getLast?_concat]
      rfl
    · rw [filterMap_concat]
      exact h.textParts.trans (List.append_nil _).symm
    · rw [filterMap_concat]
      exact h.blocks.trans (List.append_nil _).symm
  | toolCall id name args => exact h.skip rfl rfl rfl rfl rfl rfl
  | imageUrl url mime =>
    refine h.skip rfl rfl rfl rfl rfl ?_
    exact (filterMap_concat _ _ _).trans (List.append_nil _)
  | image mime dataB64 =>
    unfold Collected.add
    dsimp only
    split
    · refine h.skip rfl rfl rfl rfl rfl ?_
      exact (filterMap_concat _ _ _).trans (List.append_nil _)
    · exact h.skip rfl rfl rfl rfl rfl rfl

theorem OpenAi.collect_of (parts : List ContentPart) :
    Collected.Of toText parts (collect supported toText parts) := by
  induction parts using List.reverseRecOn with
  | nil => exact ⟨rfl, rfl, rfl, rfl⟩
  | append_singleton parts part ih =>
    unfold collect
    rw [List.foldl_append]
    exact ih.add supported part

theorem oa_keepsLast : KeepsLast oaView toText (OpenAi.messageToWire supported toText) := by
  have hspec : ∀ m : Message, OpenAi.Collected.Of toText m.content
      (OpenAi.collect supported toText m.content) := fun m => OpenAi.collect_of supported toText _
  refine ⟨fun _ => rfl, fun m => (hspec m).toolCallId, fun m r hr => ?_, fun m => ?_⟩
  · have hresult := (hspec m).toolResultContent
    rw [hr] at hresult
    simp only [oaView, OpenAi.messageToWire, OpenAi.Collected.content, hresult, Option.map_some]
    rfl
  · have hid := (hspec m).toolCallId
    have hresult := (hspec m).toolResultContent
    simp only [oaView, OpenAi.messageToWire, OpenAi.Collected.content]
    cases hlast : (toolResults m.content).getLast? with
    | some r =>
      have hne : toolResults m.content ≠ [] := by
        intro hnil
        rw [hnil] at hlast
        cases hlast
      rw [hlast] at hid
      rw [hid, if_neg hne]
      rfl
    | none =>
      rw [hlast] at hid hresult
      rw [hid, hresult, if_pos (List.getLast?_eq_none_iff.1 hlast)]
      simp only [Option.map_none, Option.isSome_none, Bool.false_eq_true, if_false]
      split
      · exact congrArg String.join (hspec m).blocks
      · rw [Message.text, ← (hspec m).textParts]
        split
        · next hempty =>
          rw [List.isEmpty_iff.1 hempty]
          rfl
        · rfl

/-- What the pass of Ollama's converter has collected of the results and the texts. -/
theorem Ollama.collect_of (parts : List ContentPart) :
    (collect toText parts).toolResult = (toolResults parts).getLast?.map (toText ·.2) ∧
      (collect toText parts).textParts = parts.filterMap ContentPart.asText := by
  induction parts using List.reverseRecOn with
  | nil => exact ⟨rfl, rfl⟩
  | append_singleton parts part ih =>
    unfold collect at *
    rw [List.foldl_append, toolResults, filterMap_concat, filterMap_concat]
    obtain ⟨hresult, htexts⟩ := ih
    cases part with
    | text s => exact ⟨(List.append_nil _).symm ▸ hresult, congrArg (· ++ [s]) htexts⟩
    | toolResult id result isError =>
      refine ⟨?_, htexts.trans (List.append_nil _).symm⟩
      simp [Collected.add, ContentPart.asToolResult]
    | _ => exact ⟨(List.append_nil _).symm ▸ hresult, htexts.trans (List.append_nil _).symm⟩

theorem olView_text {m : Message} (hrole : m.role ≠ .tool) (hnil : toolResults m.content = []) :
    olView.text (Ollama.messageToOl toText m) = m.text := by
  obtain ⟨hresult, htexts⟩ := Ollama.collect_of toText m.content
  rw [hnil] at hresult
  simp only [olView, Ollama.messageToOl, hresult, htexts]
  exact if_neg fun h => hrole (roleToStr_eq_tool.1 h)

/-- Without call ids no result arrives. -/
theorem ol_delivers_iff (messages : List Message) :
    Delivers olView toText messages (messages.map (Ollama.messageToOl toText)) ↔
      ∀ m ∈ messages, m.role ≠ .tool ∧ toolResults m.content = [] := by
  constructor
  · rintro ⟨hresults, -⟩
    have hnil : (messages.flatMap fun m => toolResults m.content) = [] := by
      refine List.eq_nil_iff_forall_not_mem.2 fun r hr => ?_
      have hmem := List.mem_map_of_mem
        (f := fun r : String × Json => (some r.1, some (toText r.2))) hr
      rw [← hresults] at hmem
      obtain ⟨w, -, hw⟩ := List.mem_map.1 hmem
      cases (Prod.mk.inj hw).1
    rw [hnil] at hresults
    intro m hm
    refine ⟨fun hrole => ?_, List.flatMap_eq_nil_iff.1 hnil m hm⟩
    have hnone := List.map_eq_nil_iff.1 hresults
    exact List.filter_eq_nil_iff.1 hnone _ (List.mem_map_of_mem hm)
      (decide_eq_true (roleToStr_eq_tool.2 hrole))
  · intro h
    constructor
    · rw [List.flatMap_eq_nil_iff.2 fun m hm => (h m hm).2, List.map_nil, List.map_eq_nil_iff,
        List.filter_eq_nil_iff]
      intro w hw htool
      obtain ⟨m, hm, rfl⟩ := List.mem_map.1 hw
      exact (h m hm).1 (roleToStr_eq_tool.1 (of_decide_eq_true htool))
    · rw [List.map_map]
      exact congrArg String.join (List.map_congr_left fun m hm =>
        olView_text toText (h m hm).1 (h m hm).2)

/-- Where the three converters deliver the tool results and the texts of a request. -/
theorem toolResults_delivered_iff (req : ChatRequest) (safePrompt : Option Bool)
    (randomSeed : Option UInt64) :
    (Delivers oaView toText req.messages (OpenAi.toOpenaiRequest toText req).messages ↔
        ∀ m ∈ req.messages, m.Alone) ∧
      (Delivers oaView toText req.messages
          (Mistral.toMistralRequest toText req safePrompt randomSeed).messages ↔
        ∀ m ∈ req.messages, m.Alone) ∧
      (Delivers olView toText req.messages (Ollama.toOllamaRequest toText req).messages ↔
        ∀ m ∈ req.messages, m.role ≠ .tool ∧ toolResults m.content = []) :=
  ⟨delivers_iff (oa_keepsLast OpenAi.isSupportedOpenaiMime toText) _,
    delivers_iff (oa_keepsLast Mistral.isSupportedMistralMime toText) _, ol_delivers_iff toText _⟩

end

open Orchestrator in
/-- The conversation of an agent that has called two tools. -/
def twoResults : List Message :=
  let s : LoopState := { messages := [.user "weather?"] }
  let s := s.answer ⟨.assistant, [.toolCall "a" "weather" .null, .toolCall "b" "weather" .null]⟩ {}
  (s.receive [.toolResult "a" .null false, .toolResult "b" .null false] none).messages

/-- None of the results of an agent's turn arrives. -/
theorem twoResults_not_delivered :
    ¬Delivers oaView (fun _ => "null") twoResults
        (OpenAi.toOpenaiRequest (fun _ => "null") (.new "m" twoResults)).messages ∧
      ¬Delivers oaView (fun _ => "null") twoResults
        (Mistral.toMistralRequest (fun _ => "null") (.new "m" twoResults) none none).messages ∧
      ¬Delivers olView (fun _ => "null") twoResults
        (Ollama.toOllamaRequest (fun _ => "null") (.new "m" twoResults)).messages := by
  refine ⟨fun h => ?_, fun h => ?_, fun h => ?_⟩ <;>
    exact absurd (congrArg List.length h.results) (by decide)

end Providers

end Tako
