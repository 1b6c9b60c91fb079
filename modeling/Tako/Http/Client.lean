import Tako.Rust.Net

/-!
# The HTTP client

A GET request by `reqwest` under its default redirect policy: up to ten redirects are followed, to
whatever `http` or `https` URL the response names. The trace of a request lists its hops, each with
the addresses that the connector may connect to. `targets` is the redirect chain that the
responses spell out. `send_hops` says what one hop does; `mem_send` and `exists_mem_send` relate
the trace to the targets.
-/

namespace Tako.Http

open Net

/-- An absolute URL. Parsing guarantees a host in every `http` and `https` URL. -/
structure Url where
  scheme : String
  hostStr : Option String
  text : String
  hasHost : scheme = "http" ∨ scheme = "https" → hostStr.isSome = true

structure Response where
  status : Nat
  location : Option String := none
  contentLength : Option Nat := none
  contentType : Option String := none
  body : Except String (List UInt8)

/-- What comes back from a hop: a transport error, or a response. -/
inductive Reply where
  | failed (e : String)
  | response (r : Response)

inductive SendError where
  | resolve (e : String)
  | connect
  | transport (e : String)
  | badScheme (url : String)
  | tooManyRedirects

/-- Redirects with a `Location` that the client follows. -/
def redirectStatuses : List Nat := [301, 302, 303, 307, 308]

inductive RedirectAction where
  | stay
  | refuse (e : SendError)
  | follow (url : Url)

/-- `Url::join`, which resolves a `Location` against the URL it was sent for. -/
abbrev Join := Url → String → Option Url

def redirectAction (join : Join) (url : Url) (r : Response) : RedirectAction :=
  if r.status ∈ redirectStatuses then
    match r.location.bind (join url) with
    | none => .stay
    | some next =>
      if next.scheme = "http" ∨ next.scheme = "https" then .follow next
      else .refuse (.badScheme next.text)
  else
    .stay

/-- One request of a redirect chain, with the addresses it may connect to. -/
structure Hop where
  url : Url
  addrs : List IpAddr

/-- The hops and the result of a request with `redirects` redirects left. `dial n` are the addresses
of the `n`-th hop. -/
def send (join : Join) : (redirects : Nat) → Url → (dial : Nat → Url → Except String (List IpAddr)) →
    (replies : Nat → Reply) → List Hop × Except SendError Response
  | redirects, url, dial, replies =>
    match dial 0 url with
    | .error e => ([], .error (.resolve e))
    | .ok [] => ([], .error .connect)
    | .ok addrs =>
      match replies 0 with
      | .failed e => ([⟨url, addrs⟩], .error (.transport e))
      | .response r =>
        match redirectAction join url r with
        | .stay => ([⟨url, addrs⟩], .ok r)
        | .refuse e => ([⟨url, addrs⟩], .error e)
        | .follow next =>
          match redirects with
          | 0 => ([⟨url, addrs⟩], .error .tooManyRedirects)
          | redirects + 1 =>
            let rest := send join redirects next (fun n => dial (n + 1)) fun n => replies (n + 1)
            (⟨url, addrs⟩ :: rest.1, rest.2)

/-- The URLs that the replies redirect to, in turn. -/
def targets (join : Join) : (redirects : Nat) → Url → (replies : Nat → Reply) → List Url
  | 0, _, _ => []
  | redirects + 1, url, replies =>
    match replies 0 with
    | .failed _ => []
    | .response r =>
      match redirectAction join url r with
      | .follow next => next :: targets join redirects next fun n => replies (n + 1)
      | _ => []

variable {join : Join}

/-- The client follows redirects to `http` and `https` only. -/
theorem redirectAction_scheme (h : redirectAction join url r = .follow next) :
    next.scheme = "http" ∨ next.scheme = "https" := by
  unfold redirectAction at h
  split at h
  · split at h
    · cases h
    split at h
    · next hs =>
      cases h
      exact hs
    · cases h
  · cases h

/-- A request that finds no address makes no hop. -/
theorem send_no_hops (h : ∀ addrs, dial 0 url = .ok addrs → addrs = []) :
    (send join redirects url dial replies).1 = [] := by
  rw [send]
  split
  · rfl
  · rfl
  · next addrs hne hdial => exact absurd (h addrs hdial) hne

/-- A request that finds an address makes its own hop. It stops there, or it goes on with the first
target. -/
theorem send_hops (hdial : dial 0 url = .ok addrs) (hne : addrs ≠ []) :
    (send join redirects url dial replies).1 = [⟨url, addrs⟩] ∧
        targets join redirects url replies = [] ∨
      ∃ redirects' < redirects, ∃ next, (next.scheme = "http" ∨ next.scheme = "https") ∧
        targets join redirects url replies =
          next :: targets join redirects' next (fun n => replies (n + 1)) ∧
        (send join redirects url dial replies).1 = ⟨url, addrs⟩ ::
          (send join redirects' next (fun n => dial (n + 1)) fun n => replies (n + 1)).1 := by
  obtain ⟨addr, addrs, rfl⟩ := List.exists_cons_of_ne_nil hne
  cases hreply : replies 0 with
  | failed e =>
    left
    cases redirects <;> simp [send, targets, hdial, hreply]
  | response r =>
    cases hnext : redirectAction join url r with
    | stay | refuse e =>
      left
      cases redirects <;> simp [send, targets, hdial, hreply, hnext]
    | follow next =>
      cases redirects with
      | zero =>
        left
        simp [send, targets, hdial, hreply, hnext]
      | succ redirects =>
        refine .inr ⟨redirects, redirects.lt_succ_self, next, redirectAction_scheme hnext, ?_, ?_⟩
        · simp [targets, hreply, hnext]
        · rw [send]
          simp only [hdial, hreply, hnext]

/-- Every hop is at the first URL or at a target, and connects to what was dialled there. -/
theorem mem_send (h : hop ∈ (send join redirects url dial replies).1) :
    hop.url ∈ url :: targets join redirects url replies ∧ hop.addrs ≠ [] ∧
      ∃ n, dial n hop.url = .ok hop.addrs := by
  induction redirects using Nat.strongRecOn generalizing url dial replies with
  | _ redirects ih =>
    by_cases hnone : ∀ addrs, dial 0 url = .ok addrs → addrs = []
    · rw [send_no_hops hnone] at h
      cases h
    simp only [Classical.not_forall] at hnone
    obtain ⟨addrs, hdial, hne⟩ := hnone
    rcases send_hops hdial hne with ⟨hsend, -⟩ | ⟨redirects', hlt, next, -, htargets, hsend⟩
    · rw [hsend] at h
      obtain rfl := List.mem_singleton.1 h
      exact ⟨List.mem_cons_self, hne, 0, hdial⟩
    rw [hsend] at h
    rw [htargets]
    rcases List.mem_cons.1 h with rfl | h
    · exact ⟨List.mem_cons_self, hne, 0, hdial⟩
    · obtain ⟨hmem, hne, n, hdial⟩ := ih redirects' hlt h
      exact ⟨List.mem_cons_of_mem _ hmem, hne, n + 1, hdial⟩

/-- When every hop finds an address, every target is visited. -/
theorem exists_mem_send
    (hdial : ∀ n u, u.scheme = "http" ∨ u.scheme = "https" → ∃ addr, dial n u = .ok [addr])
    (hurl : url.scheme = "http" ∨ url.scheme = "https")
    (h : target ∈ url :: targets join redirects url replies) :
    ∃ hop ∈ (send join redirects url dial replies).1, hop.url = target := by
  induction redirects using Nat.strongRecOn generalizing url dial replies with
  | _ redirects ih =>
    obtain ⟨addr, haddr⟩ := hdial 0 url hurl
    rcases send_hops haddr (List.cons_ne_nil addr []) with
      ⟨hsend, htargets⟩ | ⟨redirects', hlt, next, hnext, htargets, hsend⟩
    · rw [htargets] at h
      rw [hsend]
      exact ⟨_, List.mem_singleton_self _, (List.mem_singleton.1 h).symm⟩
    rw [htargets] at h
    rw [hsend]
    rcases List.mem_cons.1 h with rfl | h
    · exact ⟨_, List.mem_cons_self, rfl⟩
    · obtain ⟨hop, hhop, hurl⟩ := ih redirects' hlt (fun n => hdial (n + 1)) hnext h
      exact ⟨hop, List.mem_cons_of_mem _ hhop, hurl⟩

end Tako.Http
