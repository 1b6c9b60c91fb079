import Tako.Core.Chat
import Tako.Providers.UrlPrefetch
import Tako.Rust.Encoding
import Tako.Theory.InPlace

/-!
# The rewrite of a request by the prefetch

`UrlPrefetchConfig::rewrite` fetches the images of a request one after another, and puts each in
place of its URL at once. A fetch that fails ends the rewrite, and the images before it stay in the
request (`rewrite_inlines`). So the request is rewritten or left alone exactly if no fetch fails or
the first one does (`rewrite_allOrNothing_iff`).
-/

namespace Tako.UrlPrefetch

open Except Http Net InPlace

/-- What a fetch finds: the DNS, and the replies to its requests. -/
structure Network where
  dns : Nat → String → Except String (List IpAddr)
  replies : Nat → Reply

section Rewrite

variable {IpNet : Type} (D : Deps IpNet) (cfg : UrlPrefetchConfig IpNet)
variable (encode : List UInt8 → String) (net : Nat → Network)

/-- The body of the inner loop. Fetch number `n` finds `net n`. -/
def UrlPrefetchConfig.rewritePart : Step TakoError ContentPart
  | n, .imageUrl url mime =>
    match (cfg.fetchOne D url (net n).dns (net n).replies).2 with
    | .error e => (.error e, .imageUrl url mime, n + 1)
    | .ok (mime, bytes) => (.ok (), .image mime (encode bytes), n + 1)
  | n, part => (.ok (), part, n)

/-- The body of the outer loop. -/
def UrlPrefetchConfig.rewriteMessage : Step TakoError Message := fun n message =>
  let out := each (cfg.rewritePart D encode net) n message.content
  (out.1, { message with content := out.2.1 }, out.2.2)

/-- `rewrite`, with the request as it leaves it. -/
def UrlPrefetchConfig.rewrite (req : ChatRequest) : Result Unit × ChatRequest :=
  let out := each (cfg.rewriteMessage D encode net) 0 req.messages
  (out.1, { req with messages := out.2.1 })

end Rewrite

/-! ## All or nothing -/

/-- A part after a rewrite: an image that is supported and not too long in place of a URL, and any
other part as it was. -/
def Inlined (decode : String → Except String (List UInt8)) (maxBytes : Nat) :
    ContentPart → ContentPart → Prop
  | .imageUrl _ _, .image mime dataB64 =>
    isSupportedMime mime = true ∧ ∃ bytes, decode dataB64 = .ok bytes ∧ bytes.length ≤ maxBytes
  | .imageUrl _ _, _ => False
  | part, part' => part' = part

/-- The messages keep their roles, and their parts are inlined in place. -/
structure InlinedMessage (decode : String → Except String (List UInt8)) (maxBytes : Nat)
    (m m' : Message) : Prop where
  role : m'.role = m.role
  content : List.Forall₂ (Inlined decode maxBytes) m.content m'.content

/-- The request has its parts inlined in place, and is otherwise the same. -/
structure InlinedRequest (decode : String → Except String (List UInt8)) (maxBytes : Nat)
    (req req' : ChatRequest) : Prop where
  rest : { req' with messages := req.messages } = req
  messages : List.Forall₂ (InlinedMessage decode maxBytes) req.messages req'.messages

/-- A URL that is left. -/
def LeftUrl (part part' : ContentPart) : Prop :=
  part' = part ∧ ∃ url mime, part = .imageUrl url mime

/-- The parts before a URL are inlined, and it is left with all after it. -/
structure HaltedMessage (decode : String → Except String (List UInt8)) (maxBytes : Nat)
    (m m' : Message) : Prop where
  role : m'.role = m.role
  content : HaltedIn (Inlined decode maxBytes) LeftUrl m.content m'.content

/-- The request is inlined up to a URL in one of its messages, and from there on it is the same. -/
structure HaltedRequest (decode : String → Except String (List UInt8)) (maxBytes : Nat)
    (req req' : ChatRequest) : Prop where
  rest : { req' with messages := req.messages } = req
  messages : HaltedIn (InlinedMessage decode maxBytes) (HaltedMessage decode maxBytes)
    req.messages req'.messages

/-- A rewrite inlines the whole request, or leaves it as it was. -/
structure AllOrNothing (decode : String → Except String (List UInt8)) (maxBytes : Nat)
    (req : ChatRequest) (out : Result Unit × ChatRequest) : Prop where
  ok : out.1 = .ok () → InlinedRequest decode maxBytes req out.2
  error : ∀ e, out.1 = .error e → out.2 = req

/-! ## The fetches of a request -/

def partUrls : ContentPart → List String
  | .imageUrl url _ => [url]
  | _ => []

def messageUrls (m : Message) : List String := m.content.flatMap partUrls

/-- The URLs that a rewrite fetches, in order. -/
def requestUrls (req : ChatRequest) : List String := req.messages.flatMap messageUrls

section Fetches

variable {IpNet : Type} (D : Deps IpNet) (cfg : UrlPrefetchConfig IpNet)
variable (encode : List UInt8 → String) (net : Nat → Network)

/-- Fetch number `n` would fail on the URL. -/
def UrlPrefetchConfig.FetchFails (n : Nat) (url : String) : Prop :=
  ∃ e, (cfg.fetchOne D url (net n).dns (net n).replies).2 = .error e

variable {D cfg encode net}

theorem readImage_eq_ok (h : cfg.readImage D url sent = .ok (mime, bytes)) :
    isSupportedMime mime = true ∧ bytes.length ≤ cfg.maxBytes := by
  simp only [UrlPrefetchConfig.readImage, bind_eq_ok, rejectIf_eq_ok, exists_const, Except.ok.injEq,
    Prod.mk.injEq] at h
  obtain ⟨resp, -, -, -, hmime, _, -, hlen, rfl, rfl⟩ := h
  exact ⟨by simpa using hmime, by omega⟩

/-- A fetched image is supported and not too long. -/
theorem fetchOne_eq_ok (h : (cfg.fetchOne D url dns replies).2 = .ok (mime, bytes)) :
    isSupportedMime mime = true ∧ bytes.length ≤ cfg.maxBytes := by
  cases hchecked : cfg.checkUrl D url with
  | error e =>
    rw [fetchOne_refused D hchecked] at h
    cases h
  | ok parsed =>
    rw [UrlPrefetchConfig.fetchOne, hchecked] at h
    exact readImage_eq_ok h

theorem inlined_self {decode : String → Except String (List UInt8)} {part : ContentPart}
    (h : partUrls part = []) : Inlined decode maxBytes part part := by
  cases part with
  | imageUrl => cases h
  | text | image | toolCall | toolResult => rfl

theorem rewritePart_self {part : ContentPart} (h : partUrls part = []) (n : Nat) :
    cfg.rewritePart D encode net n part = (.ok (), part, n) := by
  cases part with
  | imageUrl => cases h
  | text | image | toolCall | toolResult => rfl

theorem rewritePart_walked {decode : String → Except String (List UInt8)}
    (hround : ∀ bytes, decode (encode bytes) = .ok bytes) (n : Nat) (part : ContentPart) :
    Walked (cfg.FetchFails D net) (Inlined decode cfg.maxBytes) LeftUrl partUrls n part
      (cfg.rewritePart D encode net n part) := by
  by_cases hnone : partUrls part = []
  · have hout : cfg.rewritePart D encode net n part =
        (.ok (), part, n + (partUrls part).length) := by
      rw [rewritePart_self hnone, hnone]
      rfl
    rw [hout]
    exact .all part (by simp [NoneFails, hnone]) (inlined_self hnone) hnone (by simp [hnone])
  cases part with
  | text | image | toolCall | toolResult => exact absurd rfl hnone
  | imageUrl url mime =>
    simp only [UrlPrefetchConfig.rewritePart]
    split
    case h_1 e hfetch =>
      refine .stopped e _ _ 0 ⟨⟨url, rfl, e, hfetch⟩, fun i hi => ?_⟩ ⟨rfl, url, mime, rfl⟩ rfl
        (by simp)
      exact absurd hi (Nat.not_lt_zero i)
    case h_2 mime' bytes hfetch =>
      refine .all _ (noneFails_singleton.2 ?_) ?_ rfl (by simp [partUrls])
      · rintro ⟨e, herr⟩
        rw [hfetch] at herr
        cases herr
      · obtain ⟨hmime, hlen⟩ := fetchOne_eq_ok hfetch
        exact ⟨hmime, bytes, hround bytes, hlen⟩

theorem rewriteMessage_walked {decode : String → Except String (List UInt8)}
    (hround : ∀ bytes, decode (encode bytes) = .ok bytes) (n : Nat) (m : Message) :
    Walked (cfg.FetchFails D net) (InlinedMessage decode cfg.maxBytes)
      (HaltedMessage decode cfg.maxBytes) messageUrls n m
      (cfg.rewriteMessage D encode net n m) := by
  apply Walked.within Message.content (fun content m => { m with content })
    (Walked.each (rewritePart_walked hround) n m.content)
  · intro content hcontent
    exact ⟨rfl, hcontent⟩
  · intro content hcontent
    exact ⟨rfl, hcontent⟩
  · intro content
    cases m
    simp
  · intro content
    rfl

theorem rewrite_walked {IpNet : Type} (D : Deps IpNet) (cfg : UrlPrefetchConfig IpNet)
    (encode : List UInt8 → String) (net : Nat → Network)
    {decode : String → Except String (List UInt8)}
    (hround : ∀ bytes, decode (encode bytes) = .ok bytes) (req : ChatRequest) :
    ∃ n, Walked (cfg.FetchFails D net) (InlinedRequest decode cfg.maxBytes)
      (HaltedRequest decode cfg.maxBytes) requestUrls 0 req
      ((cfg.rewrite D encode net req).1, (cfg.rewrite D encode net req).2, n) := by
  refine ⟨(each (cfg.rewriteMessage D encode net) 0 req.messages).2.2, ?_⟩
  apply Walked.within ChatRequest.messages (fun messages r => { r with messages })
    (Walked.each (rewriteMessage_walked hround) 0 req.messages)
  · intro messages hmessages
    exact ⟨rfl, hmessages⟩
  · intro messages hmessages
    exact ⟨rfl, hmessages⟩
  · intro messages
    cases req
    simp
  · intro messages
    rfl

end Fetches

/-- A request is inlined as a whole, or left as it was on an error, exactly if no fetch of its images
fails or the first one does. -/
theorem rewrite_allOrNothing_iff {IpNet : Type} (D : Deps IpNet) (cfg : UrlPrefetchConfig IpNet)
    (encode : List UInt8 → String) (decode : String → Except String (List UInt8))
    (hround : ∀ bytes, decode (encode bytes) = .ok bytes) (net : Nat → Network)
    (req : ChatRequest) :
    AllOrNothing decode cfg.maxBytes req (cfg.rewrite D encode net req) ↔
      NoneFails (cfg.FetchFails D net) 0 (requestUrls req) ∨
        FirstFails (cfg.FetchFails D net) 0 (requestUrls req) := by
  obtain ⟨n, hwalked⟩ := rewrite_walked D cfg encode net hround req
  rw [← hwalked.allOrNothing_iff]
  constructor
  · rintro ⟨hok, herror⟩
    exact ⟨hok, herror⟩
  · rintro ⟨hok, herror⟩
    exact ⟨hok, herror⟩

/-- A rewrite that succeeds inlines the whole request. One that fails has stopped at the first fetch
that does: the images before it are inlined, and everything from there on is as it was. -/
theorem rewrite_inlines {IpNet : Type} (D : Deps IpNet) (cfg : UrlPrefetchConfig IpNet)
    (encode : List UInt8 → String) (decode : String → Except String (List UInt8))
    (hround : ∀ bytes, decode (encode bytes) = .ok bytes) (net : Nat → Network)
    (req : ChatRequest) :
    ((cfg.rewrite D encode net req).1 = .ok () →
        InlinedRequest decode cfg.maxBytes req (cfg.rewrite D encode net req).2) ∧
      ∀ e, (cfg.rewrite D encode net req).1 = .error e →
        ∃ k, StopsAt (cfg.FetchFails D net) 0 (requestUrls req) k ∧
          HaltedRequest decode cfg.maxBytes req (cfg.rewrite D encode net req).2 ∧
          requestUrls (cfg.rewrite D encode net req).2 = (requestUrls req).drop k ∧
          ((cfg.rewrite D encode net req).2 = req ↔ k = 0) := by
  obtain ⟨n, hwalked⟩ := rewrite_walked D cfg encode net hround req
  exact ⟨hwalked.of_ok, fun e he => hwalked.of_error he⟩

/-! ## A sample -/

namespace Sample

/-- A server that has the image. -/
def served : Network where
  dns := publicDns
  replies _ := .response { status := 200, contentType := some "image/png", body := .ok [0x89] }

/-- A server that has lost it. -/
def lost : Network where
  dns := publicDns
  replies _ := .response { status := 404, body := .ok [] }

def cats (count : Nat) : ChatRequest :=
  .new "m" [⟨.user, .text "compare" :: List.replicate count (.imageUrl mirrorUrl.text none)⟩]

end Sample

open Sample in
theorem cats_lost : (config.rewrite deps Encoding.b64Encode
    (fun n => if n = 0 then served else lost) (cats 2)).1.isOk = false := by
  decide +kernel

open Sample in
/-- The second image is lost, and the first has been inlined. -/
theorem rewrite_inlines_cats :
    ∃ k, StopsAt (config.FetchFails deps (fun n => if n = 0 then served else lost)) 0
      (requestUrls (cats 2)) k ∧ requestUrls (config.rewrite deps Encoding.b64Encode
        (fun n => if n = 0 then served else lost) (cats 2)).2 = (requestUrls (cats 2)).drop k := by
  have hinlines := rewrite_inlines deps config Encoding.b64Encode Encoding.b64Decode
    Encoding.b64Decode_b64Encode (fun n => if n = 0 then served else lost) (cats 2)
  obtain ⟨e, he⟩ := isOk_eq_false_iff.1 cats_lost
  obtain ⟨k, hstops, -, hleft, -⟩ := hinlines.2 e he
  exact ⟨k, hstops, hleft⟩

open Sample in
/-- The second image is lost, and the first has been put in its place. -/
theorem rewrite_not_allOrNothing :
    ¬AllOrNothing Encoding.b64Decode config.maxBytes (cats 2)
      (config.rewrite deps Encoding.b64Encode (fun n => if n = 0 then served else lost)
        (cats 2)) := by
  intro h
  have hlost := cats_lost
  generalize hout : config.rewrite deps Encoding.b64Encode
    (fun n => if n = 0 then served else lost) (cats 2) = out at h hlost
  have hurls : requestUrls out.2 = [mirrorUrl.text] := by
    rw [← hout]
    decide +kernel
  obtain ⟨e, he⟩ := isOk_eq_false_iff.1 hlost
  rw [h.error e he] at hurls
  exact absurd hurls (by decide +kernel)

end Tako.UrlPrefetch
