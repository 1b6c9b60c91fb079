import Tako.Core.Error
import Tako.Http.Client
import Tako.Rust.Str
import Tako.Theory.Result

/-!
# Image prefetch

The `url_prefetch.rs` of the Bedrock and Ollama providers, which are copies of each other but for
the provider's name in their messages. A fetch checks the URL (its scheme, and the address of an IP
literal), and then hands it to a client whose resolver checks the addresses of host names. The
client follows redirects on its own: on a hop after the first only the resolver's check runs.
-/

namespace Tako.UrlPrefetch

open Except Http Net

/-- The third-party functions that the module calls. `IpNet` is `ipnet::IpNet`.

* `parseUrl`, `joinUrl`: `Url::parse` and `Url::join`.
* `parseNet`, `netContains`: `str::parse::<IpNet>` and `IpNet::contains`.
* `buildClient`: `ClientBuilder::build`. `bodyText`: `Response::text` of a body.
* `showIp`, `showStatus`, `showSendError`: display texts. -/
structure Deps (IpNet : Type) where
  parseUrl : String → Except String Url
  joinUrl : Join
  parseNet : String → Except String IpNet
  netContains : IpNet → IpAddr → Bool
  buildClient : Except String Unit
  bodyText : List UInt8 → String
  showIp : IpAddr → String
  showStatus : Nat → String
  showSendError : SendError → String

variable {IpNet : Type} (D : Deps IpNet)

/-! ## Blocked addresses -/

def isBlockedV4 (a : Ipv4Addr) : Bool :=
  a.isLoopback || a.isPrivate || a.isLinkLocal || a.isUnspecified || a.isBroadcast || 224 ≤ a.o0

/-- `is_blocked_ip`. -/
def isBlockedIp : IpAddr → Bool
  | .v4 a => isBlockedV4 a
  | .v6 a =>
    a.isLoopback || a.isUnspecified || a.isMulticast || a.s0 &&& 0xfe00 = 0xfc00 ||
      a.s0 &&& 0xffc0 = 0xfe80 || a.toIpv4Mapped.any isBlockedV4

/-! ## The allow-list -/

/-- Entries that bypass the blocklist. A wildcard `*.X` is kept as the suffix `.X`. -/
structure AllowList (IpNet : Type) where
  exact : List String := []
  suffixes : List String := []
  cidrs : List IpNet := []

namespace AllowList

/-- The body of the loop over the host entries. -/
def addHost (allow : AllowList IpNet) (entry : String) : AllowList IpNet :=
  match Str.stripPrefix entry "*." with
  | some suffix => { allow with suffixes := allow.suffixes ++ ["." ++ suffix] }
  | none => { allow with exact := allow.exact ++ [entry] }

def fromStringsAndCidrs (provider : String) (hostEntries cidrEntries : List String) :
    Result (AllowList IpNet) := do
  let hosts : AllowList IpNet := hostEntries.foldl addHost {}
  let cidrs ← cidrEntries.mapM fun entry => (D.parseNet entry).mapError fun e =>
    .invalid s!"{provider}: prefetch CIDR `{entry}` parse failed: {e}"
  .ok { hosts with cidrs }

def contains (allow : AllowList IpNet) (host : String) : Bool :=
  allow.exact.contains host || allow.suffixes.any (Str.endsWith host)

def containsIp (allow : AllowList IpNet) (ip : IpAddr) : Bool :=
  allow.cidrs.any (D.netContains · ip)

end AllowList

/-! ## The configuration -/

structure UrlPrefetchConfig (IpNet : Type) where
  provider : String
  allowHttp : Bool
  maxBytes : Nat
  blockPrivateIps : Bool
  allowHosts : AllowList IpNet

def UrlPrefetchConfig.new (provider : String) (allowHttp : Bool) (maxBytes : Nat)
    (blockPrivateIps : Bool) (allowHosts : AllowList IpNet) : Result (UrlPrefetchConfig IpNet) := do
  D.buildClient.mapError fun e =>
    .invalid s!"{provider}: failed to build prefetch client: {e}"
  .ok { provider, allowHttp, maxBytes, blockPrivateIps, allowHosts }

/-- The builder's knobs. -/
structure UrlPrefetchOpts where
  enabled : Bool := false
  allowHttp : Bool := false
  maxBytes : Option Nat := none
  blockPrivateIps : Bool := true
  allowHosts : List String := []
  allowCidrs : List String := []

def defaultMaxBytes : Nat := 10 * 1024 * 1024

def UrlPrefetchOpts.intoConfig (opts : UrlPrefetchOpts) (provider : String) :
    Result (Option (UrlPrefetchConfig IpNet)) :=
  if opts.enabled = false then .ok none
  else do
    let allowHosts ← AllowList.fromStringsAndCidrs D provider opts.allowHosts opts.allowCidrs
    let cfg ← UrlPrefetchConfig.new D provider opts.allowHttp (opts.maxBytes.getD defaultMaxBytes)
      opts.blockPrivateIps allowHosts
    .ok (some cfg)

/-! ## One fetch -/

/-- The address of a host that is an IP literal, with the brackets of an IPv6 one stripped. -/
def ipLiteral (hostStr : String) : Option IpAddr :=
  parseIpAddr (Str.trimEndMatches (Str.trimStartMatches hostStr '[') ']')

/-- The host of a URL with its address, when the host is an IP literal. -/
def hostLiteral (url : Url) : Option (String × IpAddr) :=
  url.hostStr.bind fun hostStr => (ipLiteral hostStr).map (hostStr, ·)

variable (cfg : UrlPrefetchConfig IpNet)

/-- The host, or the address, is on the allow-list. -/
def UrlPrefetchConfig.allowed (host : String) (ip : IpAddr) : Bool :=
  cfg.allowHosts.contains host || cfg.allowHosts.containsIp D ip

def UrlPrefetchConfig.schemeOk (scheme : String) : Bool :=
  scheme = "https" || (cfg.allowHttp && scheme = "http")

/-- The checks of `fetch_one` before the request. -/
def UrlPrefetchConfig.checkUrl (url : String) : Result Url := do
  let parsed ← (D.parseUrl url).mapError fun e =>
    .invalid s!"{cfg.provider}: prefetch URL parse failed: {e}"
  rejectIf (cfg.schemeOk parsed.scheme = false) (.invalid
    (s!"{cfg.provider}: prefetch URL scheme `{parsed.scheme}` rejected " ++
      "(only `https://` allowed; use `with_url_prefetch_allow_http` to allow `http://`)"))
  match hostLiteral parsed with
  | none => .ok parsed
  | some (hostStr, ip) => do
    rejectIf (cfg.blockPrivateIps = true ∧ cfg.allowed D hostStr ip = false ∧
        isBlockedIp ip = true) (.invalid
      (s!"{cfg.provider}: prefetch URL `{url}` resolves to blocked IP `{D.showIp ip}` " ++
        "(use `with_url_prefetch_allow_private_ips` to opt out, " ++
        "`with_url_prefetch_allow_host` to permit this host, " ++
        "or `with_url_prefetch_allow_cidr` to permit this subnet)"))
    .ok parsed

def blockedMessage (host : String) (ip : IpAddr) : String :=
  s!"prefetch URL `{host}` resolves to blocked IP `{D.showIp ip}` " ++
    "(use with_url_prefetch_allow_private_ips to opt out, " ++
    "with_url_prefetch_allow_host to permit this host, " ++
    "or with_url_prefetch_allow_cidr to permit this subnet)"

/-- `BlocklistResolver::resolve`: the addresses that the lookup found, unless one of them is blocked
and not on the allow-list. -/
def UrlPrefetchConfig.resolve (host : String) (lookup : Except String (List IpAddr)) :
    Except String (List IpAddr) := do
  let addrs ← lookup
  match addrs.find? fun ip => !cfg.allowed D host ip && isBlockedIp ip with
  | none => .ok addrs
  | some ip => .error (blockedMessage D host ip)

/-- Where the client connects to: the address of an IP literal, or what the resolver finds. -/
def UrlPrefetchConfig.dial (dns : Nat → String → Except String (List IpAddr)) (n : Nat)
    (url : Url) : Except String (List IpAddr) :=
  match url.hostStr with
  | none => .error "URL without a host"
  | some hostStr =>
    match ipLiteral hostStr with
    | some ip => .ok [ip]
    | none =>
      if cfg.blockPrivateIps then cfg.resolve D hostStr (dns n hostStr) else dns n hostStr

def isSupportedMime (mime : String) : Bool :=
  ["image/jpeg", "image/png", "image/gif", "image/webp"].contains mime

/-- The checks of `fetch_one` on the response. -/
def UrlPrefetchConfig.readImage (url : String) (sent : Except SendError Response) :
    Result (String × List UInt8) := do
  let resp ← sent.mapError fun e =>
    .transport s!"{cfg.provider}: prefetch GET {url}: {D.showSendError e}"
  rejectIf (¬(200 ≤ resp.status ∧ resp.status ≤ 299)) (.invalid
    (s!"{cfg.provider}: prefetch GET {url} returned {D.showStatus resp.status}: " ++
      match resp.body with | .ok b => D.bodyText b | .error _ => ""))
  let contentLength := resp.contentLength.getD 0
  rejectIf (contentLength > cfg.maxBytes) (.invalid
    (s!"{cfg.provider}: prefetch response Content-Length {contentLength} exceeds max " ++
      s!"{cfg.maxBytes}"))
  let contentType := Str.trim (Str.beforeFirst (resp.contentType.getD "") ';')
  rejectIf (isSupportedMime contentType = false) (.invalid
    (s!"{cfg.provider}: prefetch Content-Type `{contentType}` not supported " ++
      "(need one of image/jpeg, image/png, image/gif, image/webp)"))
  let bytes ← resp.body.mapError fun e => .transport s!"{cfg.provider}: prefetch read body: {e}"
  rejectIf (bytes.length > cfg.maxBytes) (.invalid
    (s!"{cfg.provider}: prefetch response body {bytes.length} bytes exceeds max " ++
      s!"{cfg.maxBytes}"))
  .ok (contentType, bytes)

/-- The default redirect policy. -/
def maxRedirects : Nat := 10

/-- `fetch_one`, with the hops of its request. -/
def UrlPrefetchConfig.fetchOne (url : String) (dns : Nat → String → Except String (List IpAddr))
    (replies : Nat → Reply) : List Hop × Result (String × List UInt8) :=
  match cfg.checkUrl D url with
  | .error e => ([], .error e)
  | .ok parsed =>
    let sent := send D.joinUrl maxRedirects parsed (cfg.dial D dns) replies
    (sent.1, cfg.readImage D url sent.2)

/-! ## Containment -/

/-- A connection that the options permit: over a permitted scheme, and to no blocked address unless
the host or the address is on the allow-list. -/
def UrlPrefetchConfig.Permits (url : Url) (ip : IpAddr) : Prop :=
  cfg.schemeOk url.scheme = true ∧
    ∀ hostStr, url.hostStr = some hostStr → isBlockedIp ip = true → cfg.allowed D hostStr ip = true

/-- No connection of the fetch is one that the options do not permit. -/
def UrlPrefetchConfig.Contained (url : String)
    (dns : Nat → String → Except String (List IpAddr)) (replies : Nat → Reply) : Prop :=
  ∀ hop ∈ (cfg.fetchOne D url dns replies).1, ∀ ip ∈ hop.addrs, cfg.Permits D hop.url ip

/-- A URL whose scheme is permitted and which names no blocked address outside the allow-list. -/
def UrlPrefetchConfig.Safe (url : Url) : Prop :=
  cfg.schemeOk url.scheme = true ∧
    ∀ hostStr ip, hostLiteral url = some (hostStr, ip) → isBlockedIp ip = true →
      cfg.allowed D hostStr ip = true

theorem hostLiteral_eq_some {url : Url} :
    hostLiteral url = some (hostStr, ip) ↔ url.hostStr = some hostStr ∧ ipLiteral hostStr = some ip := by
  simp only [hostLiteral, Option.bind_eq_some_iff, Option.map_eq_some_iff, Prod.mk.injEq]
  constructor
  · rintro ⟨_, hhost, _, hlit, rfl, rfl⟩
    exact ⟨hhost, hlit⟩
  · rintro ⟨hhost, hlit⟩
    exact ⟨_, hhost, _, hlit, rfl, rfl⟩

variable {cfg}

theorem schemeOk_http (h : cfg.schemeOk scheme = true) : scheme = "http" ∨ scheme = "https" := by
  simp only [UrlPrefetchConfig.schemeOk, Bool.or_eq_true, Bool.and_eq_true, decide_eq_true_eq] at h
  rcases h with h | ⟨-, h⟩
  · exact .inr h
  · exact .inl h

/-- The first URL is requested when it parses and is safe. -/
theorem checkUrl_eq_ok (hblock : cfg.blockPrivateIps = true) :
    cfg.checkUrl D url = .ok parsed ↔ D.parseUrl url = .ok parsed ∧ cfg.Safe D parsed := by
  simp only [UrlPrefetchConfig.checkUrl, bind_eq_ok, mapError_eq_ok, rejectIf_eq_ok,
    exists_const, Bool.not_eq_false]
  constructor
  · rintro ⟨u, hparse, hscheme, h⟩
    cases hlit : hostLiteral u with
    | none =>
      rw [hlit] at h
      cases h
      exact ⟨hparse, hscheme, by simp [hlit]⟩
    | some lit =>
      simp only [hlit, bind_eq_ok, rejectIf_eq_ok, exists_const] at h
      obtain ⟨hok, h⟩ := h
      cases h
      refine ⟨hparse, hscheme, fun hostStr ip hlit' hblocked => ?_⟩
      obtain rfl : lit = (hostStr, ip) := Option.some.inj (hlit.symm.trans hlit')
      simpa [hblock, hblocked] using hok
  · rintro ⟨hparse, hscheme, h⟩
    refine ⟨parsed, hparse, hscheme, ?_⟩
    cases hlit : hostLiteral parsed with
    | none => rfl
    | some lit =>
      simp only [bind_eq_ok, rejectIf_eq_ok, exists_const, and_true]
      rintro ⟨-, hallowed, hblocked⟩
      rw [h lit.1 lit.2 hlit hblocked] at hallowed
      cases hallowed

/-- What the resolver lets through is permitted. -/
theorem resolve_eq_ok (h : cfg.resolve D host lookup = .ok addrs) :
    ∀ ip ∈ addrs, isBlockedIp ip = true → cfg.allowed D host ip = true := by
  rw [UrlPrefetchConfig.resolve, bind_eq_ok] at h
  obtain ⟨found, -, h⟩ := h
  split at h
  · next hnone =>
    cases h
    intro ip hip hblocked
    simpa [hblocked] using List.find?_eq_none.1 hnone ip hip
  · cases h

/-- A connection to a safe URL is permitted, whatever the resolver is told. -/
theorem dial_permits (hblock : cfg.blockPrivateIps = true) (hsafe : cfg.Safe D u)
    (h : cfg.dial D dns n u = .ok addrs) : ∀ ip ∈ addrs, cfg.Permits D u ip := by
  intro ip hip
  refine ⟨hsafe.1, fun hostStr hhost hblocked => ?_⟩
  simp only [UrlPrefetchConfig.dial, hhost, hblock, if_true] at h
  cases hlit : ipLiteral hostStr with
  | some ip' =>
    rw [hlit] at h
    cases h
    obtain rfl := List.mem_singleton.1 hip
    exact hsafe.2 hostStr ip (hostLiteral_eq_some.2 ⟨hhost, hlit⟩) hblocked
  | none =>
    rw [hlit] at h
    exact resolve_eq_ok D h ip hip hblocked

/-- A DNS that answers every query with one public address. -/
def publicDns (_ : Nat) (_ : String) : Except String (List IpAddr) := .ok [.v4 ⟨8, 8, 8, 8⟩]

/-- The resolver lets a public address through. -/
theorem dial_publicDns (u : Url) (hu : u.scheme = "http" ∨ u.scheme = "https") :
    ∃ addr, cfg.dial D publicDns n u = .ok [addr] := by
  obtain ⟨hostStr, hhost⟩ := Option.isSome_iff_exists.1 (u.hasHost hu)
  simp only [UrlPrefetchConfig.dial, hhost]
  cases ipLiteral hostStr with
  | some ip => exact ⟨ip, rfl⟩
  | none =>
    have hpublic : isBlockedIp (.v4 ⟨8, 8, 8, 8⟩) = false := by decide
    refine ⟨.v4 ⟨8, 8, 8, 8⟩, ?_⟩
    cases cfg.blockPrivateIps <;>
      simp [publicDns, UrlPrefetchConfig.resolve, bind, Except.bind, hpublic]

theorem fetchOne_hops (h : cfg.checkUrl D url = .ok parsed) :
    (cfg.fetchOne D url dns replies).1 =
      (send D.joinUrl maxRedirects parsed (cfg.dial D dns) replies).1 := by
  rw [UrlPrefetchConfig.fetchOne, h]

theorem fetchOne_refused (h : cfg.checkUrl D url = .error e) :
    cfg.fetchOne D url dns replies = ([], .error e) := by
  rw [UrlPrefetchConfig.fetchOne, h]

/-- With the blocklist on, a fetch is contained under every DNS exactly when the URL is refused or
every redirect that the client follows goes to a safe URL. -/
theorem fetchOne_contained_iff (cfg : UrlPrefetchConfig IpNet)
    (hblock : cfg.blockPrivateIps = true) (url : String) (replies : Nat → Reply) :
    (∀ dns, cfg.Contained D url dns replies) ↔
      ∀ parsed, cfg.checkUrl D url = .ok parsed →
        ∀ next ∈ targets D.joinUrl maxRedirects parsed replies, cfg.Safe D next := by
  constructor
  · intro h parsed hparsed next hnext
    have hsafe := ((checkUrl_eq_ok D hblock).1 hparsed).2
    have hdial : ∀ n u, u.scheme = "http" ∨ u.scheme = "https" →
        ∃ addr, cfg.dial D publicDns n u = .ok [addr] := fun _ u => dial_publicDns D u
    obtain ⟨hop, hhop, hurl⟩ := exists_mem_send hdial (schemeOk_http hsafe.1)
      (List.mem_cons_of_mem parsed hnext)
    subst hurl
    obtain ⟨-, hne, n, hdial⟩ := mem_send hhop
    have hpermits : ∀ ip ∈ hop.addrs, cfg.Permits D hop.url ip :=
      h publicDns hop (by rwa [fetchOne_hops D hparsed])
    obtain ⟨ip, hip⟩ := List.exists_mem_of_ne_nil _ hne
    refine ⟨(hpermits ip hip).1, fun hostStr ip' hlit hblocked => ?_⟩
    -- the hop connects to the literal's address
    obtain ⟨hhost, hlit⟩ := hostLiteral_eq_some.1 hlit
    simp only [UrlPrefetchConfig.dial, hhost, hlit, Except.ok.injEq] at hdial
    exact (hpermits ip' (hdial ▸ List.mem_singleton_self _)).2 hostStr hhost hblocked
  · intro h dns hop hhop
    cases hparsed : cfg.checkUrl D url with
    | error e =>
      rw [fetchOne_refused D hparsed] at hhop
      cases hhop
    | ok parsed =>
      rw [fetchOne_hops D hparsed] at hhop
      obtain ⟨hmem, -, n, hdial⟩ := mem_send hhop
      refine dial_permits D hblock ?_ hdial
      rcases List.mem_cons.1 hmem with heq | hmem
      · rw [heq]
        exact ((checkUrl_eq_ok D hblock).1 hparsed).2
      · exact h parsed hparsed _ hmem

/-! ## A redirect to the metadata service -/

namespace Sample

def imageUrl : Url :=
  ⟨"https", some "attacker.example", "https://attacker.example/cat.png", fun _ => rfl⟩
def mirrorUrl : Url :=
  ⟨"https", some "mirror.example", "https://mirror.example/cat.png", fun _ => rfl⟩
def metadataUrl : Url :=
  ⟨"http", some "169.254.169.254", "http://169.254.169.254/latest/meta-data/", fun _ => rfl⟩

def parseUrl (text : String) : Except String Url :=
  match [imageUrl, mirrorUrl, metadataUrl].find? (·.text = text) with
  | some url => .ok url
  | none => .error "relative URL without a base"

/-- The crates over the three URLs, without networks. -/
def deps : Deps Empty where
  parseUrl
  joinUrl _ location := (parseUrl location).toOption
  parseNet _ := .error "invalid IP address syntax"
  netContains net := nomatch net
  buildClient := .ok ()
  bodyText b := String.ofList (b.map fun x => Char.ofNat x.toNat)
  showIp
    | .v4 a => s!"{a.o0}.{a.o1}.{a.o2}.{a.o3}"
    | .v6 _ => "::"
  showStatus := toString
  showSendError _ := "error sending request"

/-- The blocklist is on, `http` is not allowed and the allow-list is empty. -/
def config : UrlPrefetchConfig Empty := ⟨"bedrock", false, defaultMaxBytes, true, {}⟩

/-- One redirect, and then an image. -/
def redirectTo (url : Url) : Nat → Reply
  | 0 => .response { status := 302, location := some url.text, body := .ok [] }
  | _ => .response { status := 200, contentType := some "image/png", body := .ok [0x89] }

end Sample

open Sample in
/-- A redirect to another public host. -/
theorem fetchOne_contained_mirror :
    config.Contained deps imageUrl.text publicDns (redirectTo mirrorUrl) := by
  refine (fetchOne_contained_iff deps config rfl _ _).2 ?_ publicDns
  intro parsed hparsed next hnext
  have hchecked : config.checkUrl deps imageUrl.text = .ok imageUrl := by rfl
  obtain rfl : imageUrl = parsed := Except.ok.inj (hchecked.symm.trans hparsed)
  obtain rfl : next = mirrorUrl := List.mem_singleton.1 hnext
  refine ⟨rfl, fun hostStr ip hlit => ?_⟩
  have hname : hostLiteral mirrorUrl = none := by decide +kernel
  rw [hname] at hlit
  cases hlit

open Sample in
/-- The attacker's server redirects to the metadata service, over `http`. -/
theorem fetchOne_reaches_metadata :
    ¬∀ (cfg : UrlPrefetchConfig Empty) (url : String)
      (dns : Nat → String → Except String (List IpAddr)) (replies : Nat → Reply),
      cfg.blockPrivateIps = true → cfg.Contained deps url dns replies := by
  intro h
  have hreached : (config.fetchOne deps imageUrl.text publicDns (redirectTo metadataUrl)).1.any
      (fun hop => hop.url.scheme = "http" && hop.addrs = [.v4 ⟨169, 254, 169, 254⟩]) = true := by
    decide +kernel
  obtain ⟨hop, hhop, hbad⟩ := List.any_eq_true.1 hreached
  simp only [Bool.and_eq_true, decide_eq_true_eq] at hbad
  have hpermits := h config _ _ _ rfl hop hhop (.v4 ⟨169, 254, 169, 254⟩) (by simp [hbad.2])
  rw [UrlPrefetchConfig.Permits, hbad.1] at hpermits
  exact absurd hpermits.1 (by decide)

end Tako.UrlPrefetch
