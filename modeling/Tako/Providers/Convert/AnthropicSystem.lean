import Mathlib.Data.List.Forall2
import Tako.Orchestrator.Conductor.Basic
import Tako.Providers.Convert.Anthropic
import Tako.Providers.Convert.Vertex

/-!
# System messages on the wire

Anthropic has one field for the system text. The converter puts the text of each system message
into it in turn, so only the last text that is not empty arrives. Vertex joins the texts.
-/

namespace Tako

/-- The texts occur in a text, one after the other. -/
def Occur : List String → String → Prop
  | [], _ => True
  | t :: texts, s => ∃ before after, s = before ++ t ++ after ∧ Occur texts after

theorem Occur.prepend {texts : List String} {s : String} (h : Occur texts s) (t : String) :
    Occur texts (t ++ s) := by
  cases texts with
  | nil => trivial
  | cons text texts =>
    obtain ⟨before, after, rfl, hrest⟩ := h
    exact ⟨t ++ before, after, by simp only [String.append_assoc], hrest⟩

theorem occur_filter {texts : List String} {s : String} :
    Occur (texts.filter (· ≠ "")) s ↔ Occur texts s := by
  induction texts generalizing s with
  | nil => rfl
  | cons t texts ih =>
    by_cases ht : t = ""
    · subst ht
      rw [List.filter_cons_of_neg (by decide), ih]
      constructor
      · exact fun h => ⟨"", s, by simp only [String.empty_append], h⟩
      · rintro ⟨before, after, rfl, h⟩
        exact h.prepend _
    · rw [List.filter_cons_of_pos (p := fun t : String => t ≠ "") (decide_eq_true ht)]
      exact exists_congr fun before => exists_congr fun after => and_congr_right fun _ => ih

theorem Occur.length_le {texts : List String} {s : String} (h : Occur texts s) :
    (String.join texts).length ≤ s.length := by
  induction texts generalizing s with
  | nil => exact Nat.zero_le _
  | cons t texts ih =>
    obtain ⟨before, after, rfl, h⟩ := h
    have := ih h
    rw [String.length_append, String.length_append, String.join_cons, String.length_append]
    omega

/-- The last of some texts that are not empty holds all of them only if there is no other. -/
theorem occur_getLast_iff {texts : List String} (h : ∀ t ∈ texts, t ≠ "") :
    Occur texts (texts.getLast?.getD "") ↔ texts.length ≤ 1 := by
  induction texts using List.reverseRecOn with
  | nil => exact ⟨fun _ => Nat.zero_le 1, fun _ => trivial⟩
  | append_singleton texts last _ =>
    rw [List.getLast?_concat, Option.getD_some, List.length_append, List.length_singleton]
    constructor
    · intro hoccur
      have hjoin := hoccur.length_le
      rw [String.join_append, String.length_append, String.join_cons, String.join_nil,
        String.append_empty] at hjoin
      cases texts with
      | nil => exact Nat.le_refl 1
      | cons t texts =>
        have ht : t.length ≠ 0 := fun h0 =>
          h t (List.mem_append_left [last] List.mem_cons_self) (String.length_eq_zero_iff.1 h0)
        rw [String.join_cons, String.length_append] at hjoin
        omega
    · intro hlength
      rw [List.eq_nil_of_length_eq_zero (by omega : texts.length = 0)]
      exact ⟨"", "", by simp, trivial⟩

theorem occur_intercalate (texts : List String) (sep : String) :
    Occur texts (sep.intercalate texts) := by
  induction texts with
  | nil => trivial
  | cons t texts ih =>
    cases texts with
    | nil => exact ⟨"", "", by simp, trivial⟩
    | cons t' texts =>
      refine ⟨"", sep ++ sep.intercalate (t' :: texts), ?_, ih.prepend sep⟩
      rw [String.empty_append, String.intercalate_cons_cons, String.append_assoc]

/-! ## The system field of a request -/

def systemTexts (messages : List Message) : List String :=
  (messages.filter (·.role = .system)).map Message.text

namespace Providers

namespace Anthropic

theorem systemOf_concat (messages : List Message) (m : Message) :
    systemOf (messages ++ [m]) =
      if m.role = .system ∧ m.text ≠ "" then some m.text else systemOf messages :=
  List.foldl_concat ..

theorem systemOf_eq_getLast? (messages : List Message) :
    systemOf messages = ((systemTexts messages).filter (· ≠ "")).getLast? := by
  induction messages using List.reverseRecOn with
  | nil => rfl
  | append_singleton messages m ih =>
    rw [systemOf_concat, ih]
    unfold systemTexts
    by_cases hrole : m.role = .system
    · by_cases htext : m.text = ""
      · simp [hrole, htext]
      · simp [hrole, htext]
    · simp [hrole]

theorem occur_systemOf_iff {messages : List Message} :
    Occur (systemTexts messages) ((systemOf messages).getD "") ↔
      ((systemTexts messages).filter (· ≠ "")).length ≤ 1 := by
  rw [systemOf_eq_getLast?, ← occur_filter]
  exact occur_getLast_iff fun t ht => of_decide_eq_true (List.mem_filter.1 ht).2

variable (toText : Json → String)

/-- A message of the request stands for a message that is no system message. -/
structure Forwards (m : Message) (w : AnMessage) : Prop where
  role : w.role = if m.role = .assistant then "assistant" else "user"
  content : w.content = contentToBlocks toText m.content

/-- Every system text is in the system field, and every other message among the messages. -/
structure NothingLost (messages : List Message) (wire : AnRequest) : Prop where
  system : Occur (systemTexts messages) (wire.system.getD "")
  forwarded : List.Forall₂ (Forwards toText) (messages.filter (·.role ≠ .system)) wire.messages

theorem messageToAn_eq {m : Message} (hrole : m.role ≠ .system) :
    messageToAn toText m =
      if (contentToBlocks toText m.content).isEmpty then none
      else some ⟨if m.role = .assistant then "assistant" else "user",
        contentToBlocks toText m.content⟩ := by
  unfold messageToAn messageToAn.block
  cases h : m.role with
  | system => exact absurd h hrole
  | user | tool | assistant => rfl

theorem forwards_of_messageToAn {m : Message} {w : AnMessage} (hrole : m.role ≠ .system)
    (h : messageToAn toText m = some w) : Forwards toText m w := by
  rw [messageToAn_eq toText hrole] at h
  split at h
  · cases h
  · cases h
    exact ⟨rfl, rfl⟩

/-- The messages come one for one exactly if each has a block. -/
theorem forall₂_forwards_iff {messages : List Message} (h : ∀ m ∈ messages, m.role ≠ .system) :
    List.Forall₂ (Forwards toText) messages (messages.filterMap (messageToAn toText)) ↔
      ∀ m ∈ messages, contentToBlocks toText m.content ≠ [] := by
  have hsome : ∀ m ∈ messages, (messageToAn toText m).isSome ↔
      contentToBlocks toText m.content ≠ [] := by
    intro m hm
    rw [messageToAn_eq toText (h m hm)]
    split
    · next hempty => simp [List.isEmpty_iff.1 hempty]
    · next hne => simpa using hne
  constructor
  · intro hall m hm
    exact (hsome m hm).1 (List.filterMap_length_eq_length.1 hall.length_eq.symm m hm)
  · intro hne
    induction messages with
    | nil => exact .nil
    | cons m messages ih =>
      have htail := ih (fun m' hm => h m' (List.mem_cons_of_mem m hm))
        (fun m' hm => hsome m' (List.mem_cons_of_mem m hm))
        (fun m' hm => hne m' (List.mem_cons_of_mem m hm))
      obtain ⟨w, hw⟩ := Option.isSome_iff_exists.1
        ((hsome m List.mem_cons_self).2 (hne m List.mem_cons_self))
      rw [List.filterMap_cons_some hw]
      exact .cons (forwards_of_messageToAn toText (h m List.mem_cons_self) hw) htail

theorem filterMap_messageToAn (messages : List Message) :
    (messages.filter (·.role ≠ .system)).filterMap (messageToAn toText) =
      messages.filterMap (messageToAn toText) := by
  rw [List.filterMap_filter]
  refine List.filterMap_congr fun m _ => ?_
  by_cases hrole : m.role = .system
  · rw [if_neg (by simpa using hrole), messageToAn, hrole]
  · rw [if_pos (decide_eq_true hrole)]

open Orchestrator in
/-- A conductor's own system text is lost as soon as its input has one. -/
theorem conductor_lost {W : Type} (C : Conductor W) {input : OrchInput} {text : String}
    (htext : text ≠ "") (hinput : input.system = some text) (defaultMaxTokens : UInt32) :
    ¬NothingLost toText (C.conversation input)
      (toAnthropicRequest toText (.new C.model (C.conversation input)) defaultMaxTokens) := by
  intro h
  have hprompt : C.systemPrompt ≠ "" := fun hnone =>
    absurd (String.append_eq_empty_iff.1 hnone).2 (by decide)
  have htexts : systemTexts (C.conversation input) =
      C.systemPrompt :: text :: systemTexts input.messages := by
    unfold Conductor.conversation OrchInput.conversation
    rw [hinput]
    simp [systemTexts, Message.system, Message.text, ContentPart.asText]
  have hlength := occur_systemOf_iff.1 h.system
  rw [htexts] at hlength
  simp [hprompt, htext] at hlength

/-- Nothing is lost exactly if at most one system message has a text and every other message has a
block. -/
theorem nothingLost_iff (req : ChatRequest) (defaultMaxTokens : UInt32) :
    NothingLost toText req.messages (toAnthropicRequest toText req defaultMaxTokens) ↔
      ((systemTexts req.messages).filter (· ≠ "")).length ≤ 1 ∧
        ∀ m ∈ req.messages, m.role ≠ .system → contentToBlocks toText m.content ≠ [] := by
  have hforwarded : List.Forall₂ (Forwards toText) (req.messages.filter (·.role ≠ .system))
      (req.messages.filterMap (messageToAn toText)) ↔
      ∀ m ∈ req.messages, m.role ≠ .system → contentToBlocks toText m.content ≠ [] := by
    rw [← filterMap_messageToAn, forall₂_forwards_iff toText fun m hm =>
      of_decide_eq_true (List.mem_filter.1 hm).2]
    simp only [List.mem_filter, decide_eq_true_eq, and_imp]
  exact ⟨fun h => ⟨occur_systemOf_iff.1 h.system, hforwarded.1 h.forwarded⟩,
    fun h => ⟨occur_systemOf_iff.2 h.1, hforwarded.2 h.2⟩⟩

/-- The messages of a conductor whose input has a system text. -/
def twoSystems : List Message := [.system "You coordinate.", .system "Be brief.", .user "hi"]

/-- The first system text is lost. -/
theorem twoSystems_lost :
    ¬NothingLost (fun _ => "null") twoSystems
      (toAnthropicRequest (fun _ => "null") (.new "m" twoSystems) 1024) := by
  intro h
  exact absurd h.system.length_le (by decide)

end Anthropic

/-- The text of an instruction. -/
def Vertex.plain (c : VxContent) : String :=
  String.join (c.parts.filterMap fun
    | .text s => some s
    | _ => none)

/-- Vertex has all the texts. -/
theorem Vertex.systemInstruction_occur (messages : List Message) :
    Occur ((messages.filter (·.role = .system)).flatMap fun m =>
        m.content.filterMap ContentPart.asText)
      (((systemInstruction messages).map plain).getD "") := by
  unfold systemInstruction
  dsimp only
  split
  · next hempty =>
    rw [List.isEmpty_iff.1 hempty]
    trivial
  · exact occur_intercalate _ "\n"

end Providers

end Tako
