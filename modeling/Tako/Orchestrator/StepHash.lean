import Tako.Mcp.JsonText
import Tako.Orchestrator.Basic

/-!
# The hash of a step's messages has one reading

`hash_messages` feeds the roles, the parts as JSON and a bar after each message to the hash. Nothing
is escaped outside the JSON, and no length is written. Still no two lists of messages have the same
bytes: a part ends where its object is closed, and neither a brace nor a bar occurs in a role
(`hashInput_ne`).
-/

namespace Tako

open Mcp (Serde)
open Mcp.Serde (FloatTexts isNumberChar)
open SelfDelimiting

/-- The JSON in a part has valid numbers only. -/
def ContentPart.Valid : ContentPart → Prop
  | .toolCall _ _ args => args.Valid
  | .toolResult _ result _ => result.Valid
  | _ => True

def Message.Valid (m : Message) : Prop := ∀ c ∈ m.content, c.Valid

namespace Orchestrator

/-- What `hash_messages` feeds to the hash. -/
def Codec.hashInput (codec : Codec) (messages : List Message) : List UInt8 :=
  messages.flatMap fun m =>
    utf8 m.role.debug ++ (m.content.flatMap fun c => utf8 (codec.jsonToString c.toJson)) ++ utf8 "|"

theorem hashMessages_eq (codec : Codec) (messages : List Message) :
    codec.hashMessages messages = hexDigest (codec.sha256 (codec.hashInput messages)) := rfl

/-! ## Parts -/

variable {serde : Serde} {m : Message} {c : ContentPart}

theorem toJson_injective {c d : ContentPart} (h : c.toJson = d.toJson) : c = d := by
  cases c <;> cases d <;> simp_all [ContentPart.toJson]
  case imageUrl.imageUrl mime _ mime' => cases mime <;> cases mime' <;> simp_all

theorem valid_toJson (h : c.Valid) : c.toJson.Valid := by
  cases c with
  | text s => exact .object _ (by simp [Json.Valid.string])
  | image mime dataB64 => exact .object _ (by simp [Json.Valid.string])
  | imageUrl url mime => cases mime <;> exact .object _ (by simp [Json.Valid.string])
  | toolCall id name args =>
    have hargs : args.Valid := h
    exact .object _ (by simp [Json.Valid.string, hargs])
  | toolResult id result isError =>
    have hresult : result.Valid := h
    exact .object _ (by simp [Json.Valid.string, Json.Valid.bool, hresult])

/-- The characters of a part. -/
def partCode (serde : Serde) (c : ContentPart) : List Char := serde.code c.toJson

theorem partCode_starts : Starts (· = '\x7b') ContentPart.Valid (partCode serde) := by
  intro c _
  cases c <;> exact ⟨_, _, Serde.code_object _, rfl⟩

theorem partCode_separates (hf : FloatTexts serde.float) (hc : c.Valid) :
    Separates (isNumberChar · = false) ContentPart.Valid (partCode serde) c := by
  intro d r s hd hr hs h
  obtain ⟨hjson, hrs⟩ := Serde.text_separates hf (valid_toJson hc) _ r s (valid_toJson hd) hr hs h
  exact ⟨toJson_injective hjson, hrs⟩

/-! ## Messages -/

/-- The characters of a message. -/
def messageCode (serde : Serde) (m : Message) : List Char :=
  m.role.debug.toList ++ (m.content.flatMap (partCode serde) ++ ['|'])

theorem debug_inj {role role' : Role} {x y : List Char}
    (h : role.debug.toList ++ x = role'.debug.toList ++ y) : role = role' ∧ x = y := by
  cases role <;> cases role' <;> simp_all [Role.debug]

theorem messageCode_starts : Starts (fun _ => True) Message.Valid (messageCode serde) := by
  intro m _
  have hne : messageCode serde m ≠ [] := by simp [messageCode]
  obtain ⟨c, rest, hcode⟩ := List.exists_cons_of_ne_nil hne
  exact ⟨c, rest, hcode, trivial⟩

/-- A message ends at the bar after its parts. -/
theorem messageCode_separates (hf : FloatTexts serde.float) (hm : m.Valid) :
    Separates (fun _ => True) Message.Valid (messageCode serde) m := by
  intro m' r s hm' _ _ h
  rw [messageCode, messageCode, List.append_assoc, List.append_assoc, List.append_assoc,
    List.append_assoc] at h
  obtain ⟨hrole, hparts⟩ := debug_inj h
  have hends : ∀ t, Stops (fun c => isNumberChar c = false ∧ ¬c = '\x7b') ('|' :: t) := fun t =>
    stops_cons.2 ⟨rfl, by decide⟩
  have hbrace : ∀ c, c = '\x7b' → isNumberChar c = false := by
    rintro c rfl
    rfl
  obtain ⟨hcontent, hrest⟩ := Separates.flatMap partCode_starts hbrace
    (fun c hc => ⟨hm c hc, partCode_separates hf (hm c hc)⟩) hm' (hends r) (hends s) hparts
  cases m
  cases m'
  cases hrole
  cases hcontent
  exact ⟨rfl, (List.cons.inj hrest).2⟩

theorem utf8_flatMap {α : Type} (xs : List α) (f : α → List Char) :
    utf8 (String.ofList (xs.flatMap f)) = xs.flatMap fun a => utf8 (String.ofList (f a)) := by
  induction xs with
  | nil => rfl
  | cons a xs ih => rw [List.flatMap_cons, List.flatMap_cons, String.ofList_append, utf8_append, ih]

theorem hashInput_eq {codec : Codec} (hjson : codec.jsonToString = serde.text)
    (messages : List Message) :
    codec.hashInput messages = utf8 (String.ofList (messages.flatMap (messageCode serde))) := by
  rw [utf8_flatMap]
  refine List.flatMap_congr fun m _ => ?_
  rw [messageCode, String.ofList_append, String.ofList_append, utf8_append, utf8_append,
    utf8_flatMap, String.ofList_toList, hjson, ← List.append_assoc]
  simp only [partCode, Serde.code, String.ofList_toList]

/-- Lists of messages that differ have different bytes. -/
theorem hashInput_ne (serde : Serde) (hf : FloatTexts serde.float) (codec : Codec)
    (hjson : codec.jsonToString = serde.text) {a b : List Message} (ha : ∀ m ∈ a, m.Valid)
    (hb : ∀ m ∈ b, m.Valid) (h : a ≠ b) : codec.hashInput a ≠ codec.hashInput b := by
  intro heq
  rw [hashInput_eq hjson, hashInput_eq hjson] at heq
  have hcode := congrArg String.toList (utf8_injective heq)
  rw [String.toList_ofList, String.toList_ofList, ← List.append_nil (a.flatMap _),
    ← List.append_nil (b.flatMap _)] at hcode
  exact h (Separates.flatMap messageCode_starts (fun _ h => h)
    (fun m hm => ⟨ha m hm, messageCode_separates hf (ha m hm)⟩) hb stops_nil stops_nil hcode).1

/-! ## A sample -/

/-- One half, and for any other float a text that is its own. -/
def halfText (bits : UInt64) : String :=
  if bits = 0x3fe0000000000000 then "0.5" else bits.toNat.repr ++ "e0"

def halfSerde : Serde where
  float := halfText
  response _ := none

def halfCodec : Codec where
  jsonToString := halfSerde.text
  jsonFromStr _ := none
  sha256 _ := []
  debugDuration _ := ""

theorem halfText_floatTexts : FloatTexts halfSerde.float where
  chars bits _ c hc := by
    simp only [halfSerde, halfText] at hc
    split at hc
    case isTrue =>
      have hall : ∀ c ∈ "0.5".toList, isNumberChar c = true := by
        simp [isNumberChar, Serde.numberChars]
      exact hall c hc
    case isFalse =>
      rw [String.toList_append] at hc
      rcases List.mem_append.1 hc with hc | hc
      · exact Serde.isNumberChar_of_isDigit (Serde.mem_repr hc)
      · have hall : ∀ c ∈ "e0".toList, isNumberChar c = true := by
          simp [isNumberChar, Serde.numberChars]
        exact hall c hc
  marked bits _ := by
    simp only [halfSerde, halfText]
    split
    case isTrue => exact ⟨'.', by decide, .inl rfl⟩
    case isFalse => exact ⟨'e', by simp, .inr rfl⟩
  injective bits bits' _ _ h := by
    have hpoint : ∀ n : Nat, "0.5" ≠ n.repr ++ "e0" := by
      intro n hn
      have hlast := congrArg (fun s : String => s.toList.getLast?) hn
      simp at hlast
    simp only [halfSerde, halfText] at h
    split at h
    case isTrue hb =>
      split at h
      case isTrue hb' => rw [hb, hb']
      case isFalse => exact absurd h (hpoint _)
    case isFalse =>
      split at h
      case isTrue => exact absurd h.symm (hpoint _)
      case isFalse =>
        have hrepr := (String.append_left_inj _).1 h
        exact UInt64.toNat_inj.1 (Serde.repr_injective hrepr)

/-- A message, and the start of another one as its text. -/
theorem hashInput_ne_half :
    halfCodec.hashInput [⟨.assistant, [.toolCall "1" "f" (.number (.float 0x3fe0000000000000))]⟩,
        .user "hi"] ≠
      halfCodec.hashInput [⟨.assistant, [.toolCall "1" "f" (.number (.float 0x3fe0000000000000)),
        .text "|User\x7b"]⟩] := by
  refine hashInput_ne halfSerde halfText_floatTexts halfCodec rfl ?_ ?_ ?_
  · simp [Message.Valid, ContentPart.Valid, Message.user]
    exact .number _ rfl
  · simp [Message.Valid, ContentPart.Valid]
    exact .number _ rfl
  · intro h
    exact absurd (congrArg List.length h) (by decide)

end Orchestrator

end Tako
