import RustyDns.Lib.Traced
import RustyDns.L3Resolver.Odoh
import RustyDns.L3Resolver.Upstream

/-!
# The construction of the resolver

`Resolver::new` of `rustydns-resolver/src/lib.rs` with what it asks of the host: the addresses of the
upstreams come from the OS resolver, with four attempts for each URL and a sleep between them. A URL
that fails is skipped; an arm without URLs that came through ends the construction. `Upstream` has
the part that the config text decides, with every lookup taken to succeed.

The outside is the OS resolver and the clock. Hickory's builder and the HTTP client of the oblivious
arm are parameters, and nothing is assumed of them.

Results:
* `construction_asks`: what a construction asks of the OS resolver for each URL and how long it
  waits, failed or not.
* `construction_refines`: it succeeds only if the config text allows it, and fails only if the
  text does not, a lookup failed four times or a builder refused.
* `new_ensures`: every server of an arm that was built comes from a URL of that arm.
-/

namespace RustyDns.L3.Construction

open RustyDns.Lib RustyDns.Lib.Traced RustyDns.L1 RustyDns.L3.Odoh

/-! ## Name servers and options -/

/-- How a server is spoken to; the name is the one its certificate is checked for. -/
inductive Transport where
  | https (serverName : Str)
  | quic (serverName : Str)
  | udp
  | tcp
  deriving DecidableEq, Repr

/-- `ConnectionConfig` -/
structure Connection where
  transport : Transport
  port : Nat
  deriving DecidableEq, Repr

/-- Hickory's `NameServerConfig`, with its three constructors. -/
structure NameServerConfig where
  ip : IpAddr
  connections : List Connection
  deriving DecidableEq, Repr

def NameServerConfig.https (ip : IpAddr) (serverName : Str) : NameServerConfig :=
  ⟨ip, [⟨.https serverName, 443⟩]⟩

def NameServerConfig.quic (ip : IpAddr) (serverName : Str) : NameServerConfig :=
  ⟨ip, [⟨.quic serverName, 853⟩]⟩

def NameServerConfig.udpAndTcp (ip : IpAddr) : NameServerConfig :=
  ⟨ip, [⟨.udp, 53⟩, ⟨.tcp, 53⟩]⟩

inductive ResolveHosts where
  | always
  | never
  | auto
  deriving DecidableEq, Repr

inductive ServerOrderingStrategy where
  | queryStatistics
  | roundRobin
  deriving DecidableEq, Repr

/-- The options the code sets; hickory's own default is two requests at a time. -/
structure ResolverOpts where
  positiveMinTtl : Nat
  positiveMaxTtl : Nat
  negativeMinTtl : Nat
  negativeMaxTtl : Nat
  edns0 : Bool
  validate : Bool
  timeoutMs : Nat
  cacheSize : Nat
  useHostsFile : ResolveHosts
  preserveIntermediates : Bool
  numConcurrentReqs : Nat := 2
  serverOrderingStrategy : ServerOrderingStrategy
  caseRandomization : Bool
  deriving DecidableEq, Repr

/-- mirrors crates/rustydns-resolver/src/lib.rs:545-613 -/
def buildResolverOpts (cfg : DnsConfig) (protocol : UpstreamProtocol) : ResolverOpts where
  positiveMinTtl := minPositiveCacheTtlSecs
  positiveMaxTtl := maxPositiveCacheTtlSecs
  negativeMinTtl := minPositiveCacheTtlSecs
  negativeMaxTtl := maxPositiveCacheTtlSecs
  edns0 := cfg.upstream.dnssecValidation
  validate := cfg.upstream.dnssecValidation
  timeoutMs := cfg.upstream.timeoutMs
  cacheSize := cfg.upstream.maxCacheEntries
  useHostsFile := .never
  preserveIntermediates := true
  numConcurrentReqs := if cfg.privacy.randomizeUpstreamSelection then 1 else 2
  serverOrderingStrategy :=
    if cfg.privacy.randomizeUpstreamSelection then .roundRobin else .queryStatistics
  caseRandomization := protocol = .plain

inductive TlsVersion where
  | tls13
  deriving DecidableEq, Repr

/-- rustls' `ClientConfig`, as far as the code chooses it. -/
structure TlsClientConfig where
  versions : List TlsVersion
  alpnProtocols : List String
  deriving DecidableEq, Repr

/-- Without the certificates of tests nothing in it fails.
mirrors crates/rustydns-resolver/src/lib.rs:839-881 -/
def buildTlsClientConfig : TlsClientConfig where
  versions := [.tls13]
  alpnProtocols := []

/-- The TLS config of an arm. -/
def TlsClientConfig.forArm (tls : TlsClientConfig) (protocol : UpstreamProtocol) :
    TlsClientConfig :=
  { tls with
    alpnProtocols :=
      match protocol with
      | .doh => ["h2"]
      | .doq => ["doq"]
      | _ => [] }

/-- What the arms are built with: hickory's builder, the parser of an oblivious target, the HTTP
client of the oblivious arm, and hickory's text of a response code. -/
structure Builders (H : Hickory) where
  build : List NameServerConfig → ResolverOpts → TlsClientConfig → Except String (ResolverArm H)
  parseTarget : Str → Except OdohError OdohTarget
  client : DnsConfig → OdohTransport → Except OdohError (OdohArm H)
  debug : ResponseCode → String

/-! ## Bootstrap -/

/-- The host: its resolver, asked for the text `host:port`, and its clock. -/
structure Os where
  State : Type
  lookupHost : Str → State → Except String (List IpAddr) × State
  sleep : Nat → State → State

inductive Call where
  | lookup (hostPort : Str) (reply : Except String (List IpAddr))
  | sleep (secs : Nat)
  deriving DecidableEq

section
variable (O : Os)

abbrev M := ExceptT RustyDnsError (Prog O.State Call)

def lookupHost (hostPort : Str) : Prog O.State Call (Except String (List IpAddr)) :=
  call (O.lookupHost hostPort) (.lookup hostPort)

def sleep (secs : Nat) : Prog O.State Call Unit :=
  call (fun s => ((), O.sleep secs s)) fun _ => .sleep secs

/-- The addresses of a reply, or what is kept as the last error. -/
def addresses : Except String (List IpAddr) → Except String (List IpAddr)
  | .ok [] => .error "returned no addresses"
  | reply => reply

def hostPort (host : Str) (port : Nat) : Str := host ++ ':' :: Nat.toDigits 10 port

def maxAttempts : Nat := 4

def bootstrapFailed (host : Str) (lastErr : Option String) : RustyDnsError :=
  .resolver (s!"bootstrap DNS for `{host.display}` failed after {maxAttempts} attempts: " ++
    lastErr.getD "unknown")

/-- The loop, with the number of attempts that are left. There is no sleep after the last one. -/
def bootstrapFrom (host : Str) (port : Nat) : Nat → Nat → Option String → M O (List IpAddr)
  | 0, _, lastErr => throw (bootstrapFailed host lastErr)
  | left + 1, delay, _ => do
    match addresses (← ExceptT.lift (lookupHost O (hostPort host port))) with
    | .ok ips => pure ips
    | .error e => do
      if left ≠ 0 then ExceptT.lift (sleep O delay)
      bootstrapFrom host port left (2 * delay) (some e)

/-- mirrors crates/rustydns-resolver/src/lib.rs:788-832 -/
def bootstrapResolveWithRetry (host : Str) (port : Nat) : M O (List IpAddr) :=
  bootstrapFrom O host port maxAttempts 1 none

/-- The server at one address. The constructors fill in the port of the protocol; the one of the URL
takes its place. -/
def nameServer (protocol : UpstreamProtocol) (parsed : ParsedUpstream) (ip : IpAddr) :
    Except RustyDnsError NameServerConfig := do
  let ns ← match protocol with
    | .doh => pure (NameServerConfig.https ip parsed.host)
    | .doq => pure (NameServerConfig.quic ip parsed.host)
    | .plain => pure (NameServerConfig.udpAndTcp ip)
    | .odoh => .error (.resolver ("protocol = \"odoh\" is only supported on the global upstream, " ++
        "not on a conditional-forwarding route. This should have been rejected by " ++
        "validate_config."))
  pure { ns with connections := ns.connections.map ({ · with port := parsed.port }) }

/-- mirrors crates/rustydns-resolver/src/lib.rs:886-947 -/
def buildNameServers (url : Str) (protocol : UpstreamProtocol) : M O (List NameServerConfig) := do
  let parsed ← outcome (parseUpstreamUrl url protocol)
  let ips ← match parseIpAddr parsed.host with
    | some ip => pure [ip]
    | none => bootstrapResolveWithRetry O parsed.host parsed.port
  if ips = [] then
    throw (.resolver s!"bootstrap DNS for `{parsed.host.display}` returned no addresses")
  else outcome (ips.mapM (nameServer protocol parsed))

/-! ## Arms -/

variable {H : Hickory} (B : Builders H) (cfg : DnsConfig)

/-- mirrors crates/rustydns-resolver/src/lib.rs:615-678 -/
def buildResolverArm (label : Str) (resolvers : List Str) (protocol : UpstreamProtocol)
    (tls : TlsClientConfig) : M O (ResolverArm H) := do
  let outcomes ← ExceptT.lift (resolvers.mapM fun url => (buildNameServers O url protocol).run)
  let configured := outcomes.filterMap Except.toOption
  if configured = [] then
    throw (.resolver (s!"no upstream resolver could be bootstrapped for arm `{label.display}` — " ++
      "check network connectivity and the configured URLs"))
  else
    outcome ((B.build configured.flatten (buildResolverOpts cfg protocol)
      (tls.forArm protocol)).mapError fun e => .resolver s!"hickory resolver build failed: {e}")

/-- mirrors crates/rustydns-resolver/src/odoh.rs:347-388 -/
def odohArmNew : Except OdohError (OdohArm H) := do
  let transport ← OdohTransport.new B.parseTarget cfg
  B.client cfg transport

def buildDefaultArm (tls : TlsClientConfig) : M O (DefaultArm H) :=
  if cfg.upstream.protocol = .odoh then do
    let arm ← outcome ((odohArmNew B cfg).mapError fun e => .config (e.display B.debug))
    pure (.odoh arm)
  else do
    let arm ← buildResolverArm O B cfg "default".toList cfg.upstream.resolvers
      cfg.upstream.protocol tls
    pure (.hickory arm)

def buildRouteArm (tls : TlsClientConfig) (r : UpstreamRoute) :
    M O (UpstreamRoute × ResolverArm H) := do
  let arm ← buildResolverArm O B cfg r.zone.trim.toAsciiLowercase r.resolvers r.protocol tls
  pure (r, arm)

/-- mirrors crates/rustydns-resolver/src/lib.rs:219-348 -/
def new : M O (Resolver H) := do
  if cfg.upstream.resolvers = [] then
    throw (.config "upstream.resolvers is empty — at least one resolver URL is required")
  else
    let default ← buildDefaultArm O B cfg buildTlsClientConfig
    let routes ← cfg.upstream.routes.mapM (buildRouteArm O B cfg buildTlsClientConfig)
    pure { config := cfg, default, routes := routeArms routes }

end

/-! ## What is asked -/

def Call.isLookup : Call → Bool
  | .lookup _ _ => true
  | .sleep _ => false

def Call.secs : Call → Nat
  | .lookup _ _ => 0
  | .sleep secs => secs

/-- A lookup of the text that gave no address. -/
def Call.failed (text : Str) : Call → Bool
  | .lookup t reply => t == text && !(addresses reply).toBool
  | .sleep _ => false

def lookups (calls : List Call) : Nat := calls.countP Call.isLookup

def slept (calls : List Call) : Nat := (calls.map Call.secs).sum

def failures (text : Str) (calls : List Call) : Nat := calls.countP (Call.failed text)

@[simp] theorem lookups_append (a b : List Call) : lookups (a ++ b) = lookups a + lookups b :=
  List.countP_append

@[simp] theorem slept_append (a b : List Call) : slept (a ++ b) = slept a + slept b := by
  simp [slept]

@[simp] theorem failures_append (text : Str) (a b : List Call) :
    failures text (a ++ b) = failures text a + failures text b :=
  List.countP_append

/-- What is asked of the OS resolver for a URL whose host is not an address. -/
def Asked (url : Str × UpstreamProtocol) (text : Str) : Prop :=
  ∃ parsed, parseUpstreamUrl url.1 url.2 = .ok parsed ∧ parseIpAddr parsed.host = none ∧
    text = hostPort parsed.host parsed.port

/-- What is asked for one URL: nothing, or its own host if that is not an address, with at most four
lookups and seven seconds of sleep. -/
def AsksFor (url : Str × UpstreamProtocol) (part : List Call) : Prop :=
  part = [] ∨ ∃ text, Asked url text ∧ (∀ t reply, Call.lookup t reply ∈ part → t = text) ∧
    lookups part ≤ 4 ∧ slept part ≤ 7

/-- The calls are those for each of these URLs, one after the other. -/
def Modest (urls : List (Str × UpstreamProtocol)) (made : List Call) : Prop :=
  ∃ parts, List.Forall₂ AsksFor urls parts ∧ made = parts.flatten

theorem Modest.nil (urls : List (Str × UpstreamProtocol)) : Modest urls [] := by
  refine ⟨urls.map fun _ => [], ?_, by simp⟩
  rw [List.forall₂_map_right_iff, List.forall₂_same]
  exact fun _ _ => .inl rfl

theorem Modest.single {url : Str × UpstreamProtocol} {part : List Call} (h : AsksFor url part) :
    Modest [url] part :=
  ⟨[part], .cons h .nil, by simp⟩

theorem Modest.append {us vs : List (Str × UpstreamProtocol)} {made more : List Call}
    (h : Modest us made) (h' : Modest vs more) : Modest (us ++ vs) (made ++ more) := by
  obtain ⟨parts, hparts, rfl⟩ := h
  obtain ⟨parts', hparts', rfl⟩ := h'
  exact ⟨parts ++ parts', List.rel_append hparts hparts', List.flatten_append.symm⟩

/-- A program that stopped early. -/
theorem Modest.weaken {us : List (Str × UpstreamProtocol)} {made : List Call} (h : Modest us made)
    (vs : List (Str × UpstreamProtocol)) : Modest (us ++ vs) made := by
  have happend := h.append (Modest.nil vs)
  rwa [List.append_nil] at happend

/-! ## One URL -/

/-- What the attempts that are left do. -/
structure Tried (text : Str) (left delay : Nat) (result : Except RustyDnsError (List IpAddr))
    (made : List Call) : Prop where
  asked : ∀ t reply, Call.lookup t reply ∈ made → t = text
  lookups : lookups made ≤ left
  slept : slept made ≤ delay * (2 ^ (left - 1) - 1)
  found : ∀ ips, result = .ok ips → ips ≠ [] ∧ Call.lookup text (.ok ips) ∈ made
  failed : ∀ e, result = .error e → left ≤ failures text made

theorem addresses_eq_ok {reply : Except String (List IpAddr)} {ips : List IpAddr}
    (h : addresses reply = .ok ips) : reply = .ok ips ∧ ips ≠ [] := by
  unfold addresses at h
  split at h
  · cases h
  · rename_i hne
    refine ⟨h, fun hnil => hne ?_⟩
    rw [h, hnil]

theorem Tried.first {text : Str} {left delay : Nat} {reply : Except String (List IpAddr)}
    {ips : List IpAddr} (h : addresses reply = .ok ips) :
    Tried text (left + 1) delay (.ok ips) [.lookup text reply] := by
  obtain ⟨rfl, hne⟩ := addresses_eq_ok h
  refine ⟨by simp, by simp [Construction.lookups, Call.isLookup], Nat.zero_le _, ?_, by simp⟩
  intro found hfound
  cases hfound
  exact ⟨hne, List.mem_singleton_self _⟩

/-- The sleep between two attempts. -/
def pause (left delay : Nat) : List Call := if left ≠ 0 then [.sleep delay] else []

theorem slept_pause (left delay : Nat) :
    slept (pause left delay) + 2 * delay * (2 ^ (left - 1) - 1) = delay * (2 ^ left - 1) := by
  cases left with
  | zero => simp [pause, slept]
  | succ n =>
    obtain ⟨m, hm⟩ : ∃ m, 2 ^ n = m + 1 := Nat.exists_eq_succ_of_ne_zero (Nat.two_pow_pos n).ne'
    have hslept : slept (pause (n + 1) delay) = delay := by simp [pause, slept, Call.secs]
    rw [hslept, Nat.add_sub_cancel, Nat.pow_succ, hm,
      show (m + 1) * 2 - 1 = 2 * m + 1 by omega, Nat.add_sub_cancel]
    ring

theorem Tried.again {text : Str} {left delay : Nat} {reply : Except String (List IpAddr)}
    {e : String} {result : Except RustyDnsError (List IpAddr)} {more : List Call}
    (h : addresses reply = .error e) (hmore : Tried text left (2 * delay) result more) :
    Tried text (left + 1) delay result ([.lookup text reply] ++ (pause left delay ++ more)) where
  asked t r hmem := by
    simp only [List.singleton_append, List.mem_cons, List.mem_append] at hmem
    rcases hmem with hfirst | hpause | hmem
    · cases hfirst
      rfl
    · simp [pause] at hpause
    · exact hmore.asked t r hmem
  lookups := by
    have := hmore.lookups
    have hfirst : Construction.lookups [.lookup text reply] = 1 := rfl
    have hpause : Construction.lookups (pause left delay) = 0 := by
      unfold pause
      split <;> rfl
    rw [lookups_append, lookups_append]
    omega
  slept := by
    have := hmore.slept
    have := slept_pause left delay
    have hfirst : Construction.slept [.lookup text reply] = 0 := rfl
    rw [slept_append, slept_append, Nat.add_sub_cancel]
    omega
  found ips hips := by
    obtain ⟨hne, hmem⟩ := hmore.found ips hips
    exact ⟨hne, List.mem_append_right _ (List.mem_append_right _ hmem)⟩
  failed e' he := by
    have := hmore.failed e' he
    have hfirst : failures text [.lookup text reply] = 1 := by
      simp [failures, Call.failed, h, Except.toBool]
    rw [failures_append, failures_append]
    omega

section
variable {O : Os}

theorem bootstrapFrom_tried (host : Str) (port left delay : Nat) (lastErr : Option String) :
    Ensures (bootstrapFrom O host port left delay lastErr).run
      (Tried (hostPort host port) left delay) := by
  induction left generalizing delay lastErr with
  | zero =>
    exact Ensures.throw ⟨by simp, Nat.zero_le _, Nat.zero_le _, by simp, fun _ _ => Nat.zero_le _⟩
  | succ left ih =>
    have hlookup : Ensures (ExceptT.lift (lookupHost O (hostPort host port)) : M O _).run
        fun r made => ∃ reply, r = .ok reply ∧ made = [.lookup (hostPort host port) reply] :=
      Ensures.lift (Ensures.call fun reply => ⟨reply, rfl, rfl⟩)
    refine Ensures.andThen hlookup (by simp) ?_
    rintro _ _ ⟨reply, hreply, rfl⟩
    cases hreply
    split
    · rename_i ips hips
      exact Ensures.value (.first hips)
    · rename_i e he
      have hagain := ih (2 * delay) (some e)
      split
      · rename_i hleft
        have hsleep : Ensures (ExceptT.lift (sleep O delay) : M O Unit).run
            fun r made => r = .ok () ∧ made = pause left delay :=
          Ensures.lift (Ensures.call fun _ => ⟨rfl, (if_pos hleft).symm⟩)
        refine Ensures.andThen hsleep (by simp) ?_
        rintro _ _ ⟨-, rfl⟩
        exact hagain.mono fun result more hmore => .again he hmore
      · rename_i hleft
        refine hagain.mono fun result more hmore => ?_
        have hpause : pause left delay = [] := if_neg hleft
        have htried := Tried.again he hmore
        rwa [hpause, List.nil_append] at htried

/-- How a server is spoken to over a protocol. -/
def transports (serverName : Str) : UpstreamProtocol → List Transport
  | .doh => [.https serverName]
  | .doq => [.quic serverName]
  | .plain => [.udp, .tcp]
  | .odoh => []

/-- The address is the host of the URL, or one the OS resolver gave for it. -/
def Addressed (made : List Call) (parsed : ParsedUpstream) (ip : IpAddr) : Prop :=
  parseIpAddr parsed.host = some ip ∨
    parseIpAddr parsed.host = none ∧
      ∃ ips, Call.lookup (hostPort parsed.host parsed.port) (.ok ips) ∈ made ∧ ip ∈ ips

/-- The server is one of the URL: the URL's port, the protocol's transports, the URL's host in
the certificate. -/
def Reached (made : List Call) (protocol : UpstreamProtocol) (url : Str) (s : NameServerConfig) :
    Prop :=
  protocol ≠ .odoh ∧ ∃ parsed, parseUpstreamUrl url protocol = .ok parsed ∧
    s.connections = (transports parsed.host protocol).map (⟨·, parsed.port⟩) ∧
    Addressed made parsed s.ip

/-- The host of the URL could not be looked up, four times. -/
def Down (made : List Call) (protocol : UpstreamProtocol) (url : Str) : Prop :=
  ∃ parsed, parseUpstreamUrl url protocol = .ok parsed ∧ parseIpAddr parsed.host = none ∧
    4 ≤ failures (hostPort parsed.host parsed.port) made

/-- The text of the URL is one a server can be made from. -/
def Usable (protocol : UpstreamProtocol) (url : Str) : Prop :=
  ∃ parsed, L3.buildNameServers url protocol = .ok parsed

theorem usable_iff {protocol : UpstreamProtocol} {url : Str} :
    Usable protocol url ↔ protocol ≠ .odoh ∧ ∃ parsed, parseUpstreamUrl url protocol = .ok parsed := by
  simp only [Usable, L3.buildNameServers, Checks.bind_ok_iff, Checks.reject_ok_iff,
    Checks.pure_ok_iff]
  constructor
  · rintro ⟨_, parsed, hparsed, _, hprotocol, -⟩
    exact ⟨hprotocol, parsed, hparsed⟩
  · rintro ⟨hprotocol, parsed, hparsed⟩
    exact ⟨parsed, parsed, hparsed, (), hprotocol, rfl⟩

theorem Reached.usable {made : List Call} {protocol : UpstreamProtocol} {url : Str}
    {s : NameServerConfig} (h : Reached made protocol url s) : Usable protocol url := by
  obtain ⟨hprotocol, parsed, hparsed, -⟩ := h
  exact usable_iff.2 ⟨hprotocol, parsed, hparsed⟩

theorem Reached.mono {made made' : List Call} {protocol : UpstreamProtocol} {url : Str}
    {s : NameServerConfig} (h : Reached made protocol url s) (hsub : made.Sublist made') :
    Reached made' protocol url s := by
  obtain ⟨hprotocol, parsed, hparsed, hconns, haddr⟩ := h
  refine ⟨hprotocol, parsed, hparsed, hconns, haddr.imp_right ?_⟩
  rintro ⟨hname, ips, hlookup, hip⟩
  exact ⟨hname, ips, hsub.subset hlookup, hip⟩

theorem Down.mono {made made' : List Call} {protocol : UpstreamProtocol} {url : Str}
    (h : Down made protocol url) (hsub : made.Sublist made') : Down made' protocol url := by
  obtain ⟨parsed, hparsed, hname, hfour⟩ := h
  exact ⟨parsed, hparsed, hname, hfour.trans hsub.countP_le⟩

theorem nameServer_ok_iff {protocol : UpstreamProtocol} {parsed : ParsedUpstream} {ip : IpAddr}
    {s : NameServerConfig} :
    nameServer protocol parsed ip = .ok s ↔
      protocol ≠ .odoh ∧ s = ⟨ip, (transports parsed.host protocol).map (⟨·, parsed.port⟩)⟩ := by
  cases protocol <;>
    simp [nameServer, transports, NameServerConfig.https, NameServerConfig.quic,
      NameServerConfig.udpAndTcp, bind, Except.bind, pure, Except.pure, eq_comm]

/-- What one URL does. -/
structure UrlOutcome (protocol : UpstreamProtocol) (url : Str)
    (result : Except RustyDnsError (List NameServerConfig)) (made : List Call) : Prop where
  modest : Modest [(url, protocol)] made
  found : ∀ servers, result = .ok servers →
    servers ≠ [] ∧ ∀ s ∈ servers, Reached made protocol url s
  failed : ∀ e, result = .error e → ¬ Usable protocol url ∨ Down made protocol url

theorem UrlOutcome.unusable {protocol : UpstreamProtocol} {url : Str} (e : RustyDnsError)
    (h : ¬ Usable protocol url) : UrlOutcome protocol url (.error e) [] :=
  ⟨.nil _, by simp, fun _ _ => .inl h⟩

/-- With addresses at hand only the protocol can fail. -/
theorem UrlOutcome.of_addressed {protocol : UpstreamProtocol} {url : Str} {parsed : ParsedUpstream}
    {ips : List IpAddr} {made : List Call} (hparsed : parseUpstreamUrl url protocol = .ok parsed)
    (hmodest : Modest [(url, protocol)] made) (hne : ips ≠ [])
    (haddr : ∀ ip ∈ ips, Addressed made parsed ip) :
    UrlOutcome protocol url (ips.mapM (nameServer protocol parsed)) made := by
  refine ⟨hmodest, fun servers hservers => ⟨?_, fun s hs => ?_⟩, fun e he => .inl fun husable => ?_⟩
  · rintro rfl
    exact hne (List.forall₂_nil_right_iff.1 (Checks.forall₂_of_mapM hservers))
  · obtain ⟨ip, hip, hok⟩ := Checks.exists_of_mem_mapM hservers s hs
    obtain ⟨hprotocol, rfl⟩ := nameServer_ok_iff.1 hok
    exact ⟨hprotocol, parsed, hparsed, rfl, haddr ip hip⟩
  · obtain ⟨hprotocol, -⟩ := usable_iff.1 husable
    obtain ⟨servers, hservers⟩ := Checks.exists_mapM_ok_iff.2 fun ip _ =>
      (⟨_, nameServer_ok_iff.2 ⟨hprotocol, rfl⟩⟩ : ∃ s, nameServer protocol parsed ip = .ok s)
    rw [he] at hservers
    cases hservers

theorem Tried.modest {url : Str} {protocol : UpstreamProtocol} {parsed : ParsedUpstream}
    {result : Except RustyDnsError (List IpAddr)} {made : List Call}
    (hparsed : parseUpstreamUrl url protocol = .ok parsed) (hname : parseIpAddr parsed.host = none)
    (h : Tried (hostPort parsed.host parsed.port) maxAttempts 1 result made) :
    Modest [(url, protocol)] made :=
  .single (.inr ⟨_, ⟨parsed, hparsed, hname, rfl⟩, h.asked, h.lookups, h.slept⟩)

theorem buildNameServers_outcome (url : Str) (protocol : UpstreamProtocol) :
    Ensures (buildNameServers O url protocol).run (UrlOutcome protocol url) := by
  have hparse : Ensures (outcome (parseUpstreamUrl url protocol) : M O _).run
      fun r made => r = parseUpstreamUrl url protocol ∧ made = [] := Ensures.outcome ⟨rfl, rfl⟩
  refine Ensures.andThen hparse ?_ ?_
  · rintro e _ ⟨he, rfl⟩
    refine .unusable e fun husable => ?_
    obtain ⟨-, parsed, hparsed⟩ := usable_iff.1 husable
    rw [hparsed] at he
    cases he
  · rintro parsed _ ⟨hparsed, rfl⟩
    simp only [List.nil_append]
    cases hlit : parseIpAddr parsed.host with
    | some ip =>
      have hvalue : Ensures (pure [ip] : M O (List IpAddr)).run
          fun r made => r = .ok [ip] ∧ made = [] := Ensures.value ⟨rfl, rfl⟩
      refine Ensures.andThen hvalue (by simp) ?_
      rintro ips _ ⟨hips, rfl⟩
      cases hips
      rw [if_neg (List.cons_ne_nil _ _)]
      refine Ensures.outcome (.of_addressed hparsed.symm (.nil _) (List.cons_ne_nil _ _) ?_)
      intro ip' hip'
      cases List.mem_singleton.1 hip'
      exact .inl hlit
    | none =>
      refine Ensures.andThen (bootstrapFrom_tried parsed.host parsed.port maxAttempts 1 none) ?_ ?_
      · intro e made h
        exact ⟨h.modest hparsed.symm hlit, by simp,
          fun _ _ => .inr ⟨parsed, hparsed.symm, hlit, h.failed e rfl⟩⟩
      · intro ips made h
        obtain ⟨hne, hlookup⟩ := h.found ips rfl
        rw [if_neg hne]
        refine Ensures.outcome ?_
        rw [List.append_nil]
        exact .of_addressed hparsed.symm (h.modest hparsed.symm hlit) hne
          fun ip hip => .inr ⟨hlit, ips, hlookup, hip⟩

end

/-! ## One arm -/

/-- The URLs of an arm, in the order they are tried. -/
def armUrls (resolvers : List Str) (protocol : UpstreamProtocol) : List (Str × UpstreamProtocol) :=
  resolvers.map (·, protocol)

/-- What all URLs of an arm do. -/
structure UrlsOutcome (protocol : UpstreamProtocol) (resolvers : List Str)
    (outcomes : List (Except RustyDnsError (List NameServerConfig))) (made : List Call) :
    Prop where
  modest : Modest (armUrls resolvers protocol) made
  found : ∀ servers, .ok servers ∈ outcomes →
    servers ≠ [] ∧ ∀ s ∈ servers, ∃ url ∈ resolvers, Reached made protocol url s
  failed : (∀ servers, .ok servers ∉ outcomes) →
    ∀ url ∈ resolvers, ¬ Usable protocol url ∨ Down made protocol url

theorem urlsOutcome_of_each {protocol : UpstreamProtocol} {resolvers : List Str}
    {outcomes : List (Except RustyDnsError (List NameServerConfig))} {made : List Call}
    (h : Each (UrlOutcome protocol) resolvers outcomes made) :
    UrlsOutcome protocol resolvers outcomes made := by
  induction h with
  | nil => exact ⟨.nil _, by simp, by simp⟩
  | @cons url result resolvers outcomes made more hurl _ ih =>
    have hleft : made.Sublist (made ++ more) := List.sublist_append_left _ _
    have hright : more.Sublist (made ++ more) := List.sublist_append_right _ _
    refine ⟨hurl.modest.append ih.modest, fun servers hservers => ?_, fun hnone => ?_⟩
    · rcases List.mem_cons.1 hservers with hfirst | hlater
      · obtain ⟨hne, hreached⟩ := hurl.found servers hfirst.symm
        exact ⟨hne, fun s hs => ⟨url, List.mem_cons_self, (hreached s hs).mono hleft⟩⟩
      · obtain ⟨hne, hreached⟩ := ih.found servers hlater
        refine ⟨hne, fun s hs => ?_⟩
        obtain ⟨url', hurl', hs'⟩ := hreached s hs
        exact ⟨url', List.mem_cons_of_mem _ hurl', hs'.mono hright⟩
    · have hrest := ih.failed fun servers hmem => hnone servers (List.mem_cons_of_mem _ hmem)
      refine List.forall_mem_cons.2 ⟨?_, fun url' hurl' => ?_⟩
      · cases result with
        | ok servers => exact absurd List.mem_cons_self (hnone servers)
        | error e => exact (hurl.failed e rfl).imp_right (·.mono hleft)
      · exact (hrest url' hurl').imp_right (·.mono hright)

/-- Servers of these URLs, at least one. -/
structure Servers (made : List Call) (resolvers : List Str) (protocol : UpstreamProtocol)
    (servers : List NameServerConfig) : Prop where
  ne_nil : servers ≠ []
  reached : ∀ s ∈ servers, ∃ url ∈ resolvers, Reached made protocol url s

theorem Servers.mono {made made' : List Call} {resolvers : List Str} {protocol : UpstreamProtocol}
    {servers : List NameServerConfig} (h : Servers made resolvers protocol servers)
    (hsub : made.Sublist made') : Servers made' resolvers protocol servers := by
  refine ⟨h.ne_nil, fun s hs => ?_⟩
  obtain ⟨url, hurl, hs'⟩ := h.reached s hs
  exact ⟨url, hurl, hs'.mono hsub⟩

theorem mem_configured {outcomes : List (Except RustyDnsError (List NameServerConfig))}
    {servers : List NameServerConfig} :
    servers ∈ outcomes.filterMap Except.toOption ↔ .ok servers ∈ outcomes := by
  simp [List.mem_filterMap, Checks.toOption_eq_some_iff]

/-- What the builder is given. -/
theorem UrlsOutcome.servers {protocol : UpstreamProtocol} {resolvers : List Str}
    {outcomes : List (Except RustyDnsError (List NameServerConfig))} {made : List Call}
    (h : UrlsOutcome protocol resolvers outcomes made)
    (hsome : outcomes.filterMap Except.toOption ≠ []) :
    Servers made resolvers protocol (outcomes.filterMap Except.toOption).flatten := by
  obtain ⟨first, hfirst⟩ := List.exists_mem_of_ne_nil _ hsome
  obtain ⟨s, hs⟩ := List.exists_mem_of_ne_nil _ (h.found first (mem_configured.1 hfirst)).1
  refine ⟨List.ne_nil_of_mem (List.mem_flatten.2 ⟨first, hfirst, hs⟩), fun s hs => ?_⟩
  obtain ⟨servers, hservers, hs⟩ := List.mem_flatten.1 hs
  exact (h.found servers (mem_configured.1 hservers)).2 s hs

section
variable {O : Os} {H : Hickory} (B : Builders H) (cfg : DnsConfig)

/-- The arm is hickory's for servers of these URLs, with the options and the TLS config of the
protocol. -/
def Built (made : List Call) (resolvers : List Str) (protocol : UpstreamProtocol)
    (arm : ResolverArm H) : Prop :=
  ∃ servers, Servers made resolvers protocol servers ∧
    B.build servers (buildResolverOpts cfg protocol) (buildTlsClientConfig.forArm protocol) =
      .ok arm

/-- Why an arm is not built. -/
inductive Fails (made : List Call) (resolvers : List Str) (protocol : UpstreamProtocol) : Prop where
  | text : (∀ url ∈ resolvers, ¬ Usable protocol url) → Fails made resolvers protocol
  | down {url : Str} : url ∈ resolvers → Down made protocol url → Fails made resolvers protocol
  | builder {servers : List NameServerConfig} {e : String} :
      Servers made resolvers protocol servers →
      B.build servers (buildResolverOpts cfg protocol) (buildTlsClientConfig.forArm protocol) =
        .error e → Fails made resolvers protocol

variable {B cfg}

theorem Built.mono {made made' : List Call} {resolvers : List Str} {protocol : UpstreamProtocol}
    {arm : ResolverArm H} (h : Built B cfg made resolvers protocol arm)
    (hsub : made.Sublist made') : Built B cfg made' resolvers protocol arm := by
  obtain ⟨servers, hservers, hbuild⟩ := h
  exact ⟨servers, hservers.mono hsub, hbuild⟩

theorem Built.usable {made : List Call} {resolvers : List Str} {protocol : UpstreamProtocol}
    {arm : ResolverArm H} (h : Built B cfg made resolvers protocol arm) :
    ∃ url ∈ resolvers, Usable protocol url := by
  obtain ⟨servers, hservers, -⟩ := h
  obtain ⟨s, hs⟩ := List.exists_mem_of_ne_nil servers hservers.ne_nil
  obtain ⟨url, hurl, hs'⟩ := hservers.reached s hs
  exact ⟨url, hurl, hs'.usable⟩

theorem Fails.mono {made made' : List Call} {resolvers : List Str} {protocol : UpstreamProtocol}
    (h : Fails B cfg made resolvers protocol) (hsub : made.Sublist made') :
    Fails B cfg made' resolvers protocol := by
  cases h with
  | text h => exact .text h
  | down hurl hdown => exact .down hurl (hdown.mono hsub)
  | builder hservers hbuild => exact .builder (hservers.mono hsub) hbuild

variable (B cfg) in
/-- What building an arm does. -/
structure ArmOutcome (resolvers : List Str) (protocol : UpstreamProtocol)
    (result : Except RustyDnsError (ResolverArm H)) (made : List Call) : Prop where
  modest : Modest (armUrls resolvers protocol) made
  built : ∀ arm, result = .ok arm → Built B cfg made resolvers protocol arm
  failed : ∀ e, result = .error e → Fails B cfg made resolvers protocol

theorem UrlsOutcome.fails {protocol : UpstreamProtocol} {resolvers : List Str}
    {outcomes : List (Except RustyDnsError (List NameServerConfig))} {made : List Call}
    (h : UrlsOutcome protocol resolvers outcomes made) (hnone : ∀ servers, .ok servers ∉ outcomes) :
    Fails B cfg made resolvers protocol := by
  by_cases hdown : ∃ url ∈ resolvers, Down made protocol url
  · obtain ⟨url, hurl, hdown⟩ := hdown
    exact .down hurl hdown
  · refine .text fun url hurl => (h.failed hnone url hurl).resolve_right fun hurldown => ?_
    exact hdown ⟨url, hurl, hurldown⟩

theorem buildResolverArm_outcome (label : Str) (resolvers : List Str)
    (protocol : UpstreamProtocol) :
    Ensures (buildResolverArm O B cfg label resolvers protocol buildTlsClientConfig).run
      (ArmOutcome B cfg resolvers protocol) := by
  have hurls : Ensures (ExceptT.lift
      (resolvers.mapM fun url => (buildNameServers O url protocol).run) : M O _).run
        fun r made => ∃ outcomes, r = .ok outcomes ∧
          UrlsOutcome protocol resolvers outcomes made := by
    exact Ensures.lift ((Ensures.mapM (fun url => buildNameServers_outcome url protocol)
      resolvers).mono fun outcomes made h => ⟨outcomes, rfl, urlsOutcome_of_each h⟩)
  refine Ensures.andThen hurls (by simp) ?_
  rintro outcomes made ⟨_, houtcomes, h⟩
  cases houtcomes
  dsimp only
  split
  · rename_i hnone
    refine Ensures.throw ?_
    rw [List.append_nil]
    refine ⟨h.modest, by simp, fun _ _ => h.fails fun servers hmem => ?_⟩
    exact List.ne_nil_of_mem (mem_configured.2 hmem) hnone
  · rename_i hsome
    refine Ensures.outcome ?_
    rw [List.append_nil]
    refine ⟨h.modest, fun arm harm => ?_, fun e he => ?_⟩
    · exact ⟨_, h.servers hsome, Checks.mapError_ok_iff.1 harm⟩
    · cases hbuild : B.build (outcomes.filterMap Except.toOption).flatten
          (buildResolverOpts cfg protocol) (buildTlsClientConfig.forArm protocol) with
      | ok arm =>
        rw [hbuild] at he
        cases he
      | error text => exact .builder (h.servers hsome) hbuild

/-! ## All arms -/

/-- The arms that hickory builds, the default one first. -/
def configuredArms (upstream : UpstreamConfig) : List (List Str × UpstreamProtocol) :=
  (if upstream.protocol = .odoh then [] else [(upstream.resolvers, upstream.protocol)]) ++
    upstream.routes.map fun r => (r.resolvers, r.protocol)

def configuredUrls (upstream : UpstreamConfig) : List (Str × UpstreamProtocol) :=
  (configuredArms upstream).flatMap fun arm => armUrls arm.1 arm.2

variable (B cfg) in
/-- The default arm that a construction leaves. -/
def DefaultBuilt (made : List Call) : DefaultArm H → Prop
  | .odoh arm => cfg.upstream.protocol = .odoh ∧ odohArmNew B cfg = .ok arm
  | .hickory arm =>
    cfg.upstream.protocol ≠ .odoh ∧ Built B cfg made cfg.upstream.resolvers cfg.upstream.protocol arm

variable (B cfg) in
/-- Why a construction fails. -/
inductive NewFails (made : List Call) : Prop where
  | noResolvers : cfg.upstream.resolvers = [] → NewFails made
  | odoh {e : OdohError} : cfg.upstream.protocol = .odoh → odohArmNew B cfg = .error e →
      NewFails made
  | arm {arm : List Str × UpstreamProtocol} : arm ∈ configuredArms cfg.upstream →
      Fails B cfg made arm.1 arm.2 → NewFails made

variable (B cfg) in
/-- What building the arms of the routes does. -/
structure RoutesOutcome (routes : List UpstreamRoute)
    (result : Except RustyDnsError (List (UpstreamRoute × ResolverArm H))) (made : List Call) :
    Prop where
  modest : Modest (routes.flatMap fun r => armUrls r.resolvers r.protocol) made
  built : ∀ arms, result = .ok arms → arms.map Prod.fst = routes ∧
    ∀ r ∈ arms, Built B cfg made r.1.resolvers r.1.protocol r.2
  failed : ∀ e, result = .error e → ∃ r ∈ routes, Fails B cfg made r.resolvers r.protocol

variable (B cfg) in
/-- What one round of the loop does. -/
structure RouteOutcome (r : UpstreamRoute)
    (result : Except RustyDnsError (UpstreamRoute × ResolverArm H)) (made : List Call) : Prop where
  modest : Modest (armUrls r.resolvers r.protocol) made
  built : ∀ arm, result = .ok arm → arm.1 = r ∧ Built B cfg made r.resolvers r.protocol arm.2
  failed : ∀ e, result = .error e → Fails B cfg made r.resolvers r.protocol

theorem buildRouteArm_outcome (r : UpstreamRoute) :
    Ensures (buildRouteArm O B cfg buildTlsClientConfig r).run (RouteOutcome B cfg r) := by
  refine Ensures.andThen (buildResolverArm_outcome r.zone.trim.toAsciiLowercase r.resolvers
    r.protocol) ?_ ?_
  · intro e made h
    exact ⟨h.modest, by simp, fun _ _ => h.failed e rfl⟩
  · intro arm made h
    refine Ensures.value ?_
    rw [List.append_nil]
    refine ⟨h.modest, fun p hp => ?_, by simp⟩
    cases hp
    exact ⟨rfl, h.built arm rfl⟩

theorem routesOutcome_of_through {routes : List UpstreamRoute}
    {result : Except RustyDnsError (List (UpstreamRoute × ResolverArm H))} {made : List Call}
    (h : Through (RouteOutcome B cfg) routes result made) : RoutesOutcome B cfg routes result made := by
  induction h with
  | nil =>
    refine ⟨.nil _, fun arms harms => ?_, by simp⟩
    cases harms
    exact ⟨rfl, by simp⟩
  | fails hround =>
    exact ⟨hround.modest.weaken _, by simp,
      fun _ _ => ⟨_, List.mem_cons_self, hround.failed _ rfl⟩⟩
  | @next r arm routes rest made more hround _ ih =>
    have hleft : made.Sublist (made ++ more) := List.sublist_append_left _ _
    have hright : more.Sublist (made ++ more) := List.sublist_append_right _ _
    obtain ⟨hroute, hbuilt⟩ := hround.built arm rfl
    refine ⟨hround.modest.append ih.modest, fun arms harms => ?_, fun e he => ?_⟩
    · obtain ⟨later, hlater, rfl⟩ := Checks.map_ok_iff.1 harms
      obtain ⟨hroutes, hlaterBuilt⟩ := ih.built later hlater
      refine ⟨by rw [List.map_cons, hroute, hroutes], List.forall_mem_cons.2 ⟨?_, ?_⟩⟩
      · rw [hroute]
        exact hbuilt.mono hleft
      · exact fun p hp => (hlaterBuilt p hp).mono hright
    · cases rest with
      | ok later => cases he
      | error e' =>
        obtain ⟨r', hr', hfails⟩ := ih.failed e' rfl
        exact ⟨r', List.mem_cons_of_mem _ hr', hfails.mono hright⟩

/-- The URLs of the default arm. -/
def defaultUrls (upstream : UpstreamConfig) : List (Str × UpstreamProtocol) :=
  if upstream.protocol = .odoh then [] else armUrls upstream.resolvers upstream.protocol

variable (B cfg) in
structure DefaultOutcome (result : Except RustyDnsError (DefaultArm H)) (made : List Call) :
    Prop where
  modest : Modest (defaultUrls cfg.upstream) made
  built : ∀ arm, result = .ok arm → DefaultBuilt B cfg made arm
  failed : ∀ e, result = .error e → NewFails B cfg made

theorem buildDefaultArm_outcome :
    Ensures (buildDefaultArm O B cfg buildTlsClientConfig).run (DefaultOutcome B cfg) := by
  unfold buildDefaultArm
  split
  · rename_i hodoh
    cases hnew : odohArmNew B cfg with
    | error e =>
      refine Ensures.throw ⟨.nil _, by simp, fun _ _ => .odoh hodoh hnew⟩
    | ok arm =>
      refine Ensures.value ⟨.nil _, fun arm' harm' => ?_, by simp⟩
      cases harm'
      exact ⟨hodoh, hnew⟩
  · rename_i hhickory
    have hurls : defaultUrls cfg.upstream =
        armUrls cfg.upstream.resolvers cfg.upstream.protocol := if_neg hhickory
    have hmem : (cfg.upstream.resolvers, cfg.upstream.protocol) ∈ configuredArms cfg.upstream := by
      simp [configuredArms, hhickory]
    refine Ensures.andThen (buildResolverArm_outcome _ _ _) ?_ ?_
    · intro e made h
      exact ⟨hurls ▸ h.modest, by simp, fun _ _ => .arm hmem (h.failed e rfl)⟩
    · intro arm made h
      refine Ensures.value ?_
      rw [List.append_nil]
      refine ⟨hurls ▸ h.modest, fun arm' harm' => ?_, by simp⟩
      cases harm'
      exact ⟨hhickory, h.built arm rfl⟩

theorem configuredUrls_eq (upstream : UpstreamConfig) :
    configuredUrls upstream =
      defaultUrls upstream ++ upstream.routes.flatMap fun r => armUrls r.resolvers r.protocol := by
  unfold configuredUrls configuredArms defaultUrls
  split <;> simp [List.flatMap_map]

variable (B cfg) in
/-- The resolver that a construction leaves. -/
structure NewBuilt (made : List Call) (res : Resolver H) : Prop where
  resolvers : cfg.upstream.resolvers ≠ []
  default : DefaultBuilt B cfg made res.default
  routes : ∃ arms, res.routes = routeArms arms ∧ arms.map Prod.fst = cfg.upstream.routes ∧
    ∀ r ∈ arms, Built B cfg made r.1.resolvers r.1.protocol r.2

variable (B cfg) in
structure NewOutcome (result : Except RustyDnsError (Resolver H)) (made : List Call) : Prop where
  modest : Modest (configuredUrls cfg.upstream) made
  built : ∀ res, result = .ok res → NewBuilt B cfg made res
  failed : ∀ e, result = .error e → NewFails B cfg made

theorem DefaultBuilt.mono {made made' : List Call} {arm : DefaultArm H}
    (h : DefaultBuilt B cfg made arm) (hsub : made.Sublist made') :
    DefaultBuilt B cfg made' arm := by
  cases arm with
  | hickory arm => exact ⟨h.1, h.2.mono hsub⟩
  | odoh arm => exact h

variable (O B cfg) in
theorem new_ensures : Ensures (new O B cfg).run (NewOutcome B cfg) := by
  unfold new
  by_cases hnone : cfg.upstream.resolvers = []
  · rw [if_pos hnone]
    exact Ensures.throw ⟨.nil _, by simp, fun _ _ => .noResolvers hnone⟩
  rw [if_neg hnone]
  refine Ensures.andThen buildDefaultArm_outcome ?_ ?_
  · intro e made hdefault
    refine ⟨?_, by simp, fun _ _ => hdefault.failed e rfl⟩
    rw [configuredUrls_eq]
    exact hdefault.modest.weaken _
  intro default made hdefault
  have hroutes : Ensures (cfg.upstream.routes.mapM
      (buildRouteArm O B cfg buildTlsClientConfig) : M O _).run
        (RoutesOutcome B cfg cfg.upstream.routes) :=
    (Ensures.mapM_except buildRouteArm_outcome _).mono fun _ _ h => routesOutcome_of_through h
  refine Ensures.andThen hroutes ?_ ?_
  · intro e more h
    obtain ⟨r, hr, hfails⟩ := h.failed e rfl
    have hmem : (r.resolvers, r.protocol) ∈ configuredArms cfg.upstream :=
      List.mem_append_right _ (List.mem_map_of_mem hr)
    refine ⟨?_, by simp, fun _ _ => .arm hmem (hfails.mono (List.sublist_append_right _ _))⟩
    rw [configuredUrls_eq]
    exact hdefault.modest.append h.modest
  · intro arms more h
    refine Ensures.value ?_
    rw [List.append_nil]
    obtain ⟨harms, hbuilt⟩ := h.built arms rfl
    refine ⟨?_, fun res hres => ?_, by simp⟩
    · rw [configuredUrls_eq]
      exact hdefault.modest.append h.modest
    · cases hres
      exact ⟨hnone, (hdefault.built default rfl).mono (List.sublist_append_left _ _),
        arms, rfl, harms, fun r hr => (hbuilt r hr).mono (List.sublist_append_right _ _)⟩

/-! ## Against the config text -/

/-- An arm needs a URL whose text is usable. -/
theorem exists_arm_iff {label : Str} {resolvers : List Str} {protocol : UpstreamProtocol} :
    (∃ parsed, L3.buildResolverArm label resolvers protocol = .ok parsed) ↔
      ∃ url ∈ resolvers, Usable protocol url := by
  simp only [L3.buildResolverArm, Checks.seq_ok_iff, Checks.reject_ok_iff, Checks.pure_ok_iff,
    exists_and_left, exists_eq', and_true, List.filterMap_eq_nil_iff, not_forall, exists_prop,
    Option.ne_none_iff_exists', Checks.toOption_eq_some_iff]
  rfl

theorem exists_arms_iff {upstream : UpstreamConfig} :
    (∃ arms, buildArms upstream = .ok arms) ↔
      upstream.resolvers ≠ [] ∧
        ∀ arm ∈ configuredArms upstream, ∃ url ∈ arm.1, Usable arm.2 url := by
  have hdefault : (∃ arm, L3.buildDefaultArm upstream = .ok arm) ↔
      (upstream.protocol ≠ .odoh → ∃ url ∈ upstream.resolvers, Usable upstream.protocol url) := by
    unfold L3.buildDefaultArm
    by_cases hodoh : upstream.protocol = .odoh
    · simp [hodoh]
    · rw [if_neg hodoh, exists_arm_iff]
      exact ⟨fun husable _ => husable, fun husable => husable hodoh⟩
  have hroutes : (∃ arms, (upstream.routes.mapM fun r =>
      L3.buildResolverArm r.zone.trim.toAsciiLowercase r.resolvers r.protocol) = .ok arms) ↔
      ∀ r ∈ upstream.routes, ∃ url ∈ r.resolvers, Usable r.protocol url := by
    rw [Checks.exists_mapM_ok_iff]
    exact forall₂_congr fun r _ => exists_arm_iff
  have harms : (∀ arm ∈ configuredArms upstream, ∃ url ∈ arm.1, Usable arm.2 url) ↔
      (upstream.protocol ≠ .odoh → ∃ url ∈ upstream.resolvers, Usable upstream.protocol url) ∧
        ∀ r ∈ upstream.routes, ∃ url ∈ r.resolvers, Usable r.protocol url := by
    unfold configuredArms
    split <;> simp_all
  rw [harms, ← hdefault, ← hroutes]
  simp only [buildArms, Checks.bind_ok_iff, Checks.reject_ok_iff, Checks.pure_ok_iff]
  constructor
  · rintro ⟨_, _, hresolvers, default, hdefault, routes, hroutes, -⟩
    exact ⟨hresolvers, ⟨default, hdefault⟩, routes, hroutes⟩
  · rintro ⟨hresolvers, ⟨default, hdefault⟩, routes, hroutes⟩
    exact ⟨_, (), hresolvers, default, hdefault, routes, hroutes, rfl⟩

theorem NewBuilt.usable {made : List Call} {res : Resolver H} (h : NewBuilt B cfg made res) :
    ∀ arm ∈ configuredArms cfg.upstream, ∃ url ∈ arm.1, Usable arm.2 url := by
  intro arm harm
  rcases List.mem_append.1 harm with hdefault | hroute
  · have hbuilt := h.default
    split at hdefault
    · cases hdefault
    · rename_i hhickory
      cases List.mem_singleton.1 hdefault
      cases hres : res.default with
      | hickory arm =>
        rw [hres] at hbuilt
        exact hbuilt.2.usable
      | odoh arm =>
        rw [hres] at hbuilt
        exact absurd hbuilt.1 hhickory
  · obtain ⟨r, hr, rfl⟩ := List.mem_map.1 hroute
    obtain ⟨arms, -, hroutes, hbuilt⟩ := h.routes
    rw [← hroutes] at hr
    obtain ⟨p, hp, rfl⟩ := List.mem_map.1 hr
    exact (hbuilt p hp).usable

variable (B cfg) in
/-- A builder refused: hickory's the servers of a configured arm, or the client its transport. -/
inductive Refused (made : List Call) : Prop where
  | hickory {arm : List Str × UpstreamProtocol} {servers : List NameServerConfig} {e : String} :
      arm ∈ configuredArms cfg.upstream → Servers made arm.1 arm.2 servers →
      B.build servers (buildResolverOpts cfg arm.2) (buildTlsClientConfig.forArm arm.2) =
        .error e → Refused made
  | odoh {e : OdohError} : cfg.upstream.protocol = .odoh → odohArmNew B cfg = .error e →
      Refused made

theorem NewFails.cases {made : List Call} (h : NewFails B cfg made) :
    (¬ ∃ arms, buildArms cfg.upstream = .ok arms) ∨
      (∃ url ∈ configuredUrls cfg.upstream, Down made url.2 url.1) ∨ Refused B cfg made := by
  cases h with
  | noResolvers hnone => exact .inl fun harms => (exists_arms_iff.1 harms).1 hnone
  | odoh hodoh hnew => exact .inr (.inr (.odoh hodoh hnew))
  | @arm arm harm hfails =>
    cases hfails with
    | text htext =>
      refine .inl fun harms => ?_
      obtain ⟨url, hurl, husable⟩ := (exists_arms_iff.1 harms).2 arm harm
      exact htext url hurl husable
    | @down url hurl hdown =>
      have hmem : (url, arm.2) ∈ configuredUrls cfg.upstream :=
        List.mem_flatMap.2 ⟨arm, harm, List.mem_map_of_mem hurl⟩
      exact .inr (.inl ⟨(url, arm.2), hmem, hdown⟩)
    | builder hservers hbuild => exact .inr (.inr (.hickory harm hservers hbuild))

end

/-- **What a construction asks of the host.** For every config, every OS resolver and whether or not
it succeeds, the calls of a construction fall into those for each configured hickory URL, in the
order they are configured. For a URL whose host is an address there are none; for another there are
at most four lookups, of its own host and port, and seven seconds of sleep. -/
theorem construction_asks {H : Hickory} (O : Os) (B : Builders H) (cfg : DnsConfig)
    (w : World O.State Call) :
    ∃ parts, ((new O B cfg).run w).2.calls = w.calls ++ parts.flatten ∧
      List.Forall₂ AsksFor (configuredUrls cfg.upstream) parts := by
  obtain ⟨made, hcalls, h⟩ := new_ensures O B cfg w
  obtain ⟨parts, hparts, rfl⟩ := h.modest
  exact ⟨parts, hcalls, hparts⟩

/-- Both bounds are reached by a host whose resolver is down. -/
example :
    let down : Os := { State := Unit, lookupHost := fun _ s => (.error "down", s), sleep := fun _ s => s }
    let calls := ((bootstrapResolveWithRetry down "dns.quad9.net".toList 443).run ⟨(), []⟩).2.calls
    lookups calls = 4 ∧ slept calls = 7 := by
  decide

/-- **The construction against the config text.** If it succeeds, the arms of the text can be built.
If it fails, they cannot, or the host of a configured URL failed four lookups, or hickory's builder
refused servers that the URLs of a configured arm led to, or the oblivious arm could not be made. -/
theorem construction_refines {H : Hickory} (O : Os) (B : Builders H) (cfg : DnsConfig)
    (w : World O.State Call) :
    ∃ made, ((new O B cfg).run w).2.calls = w.calls ++ made ∧
      (∀ res, ((new O B cfg).run w).1 = .ok res → ∃ arms, buildArms cfg.upstream = .ok arms) ∧
      ∀ e, ((new O B cfg).run w).1 = .error e →
        (¬ ∃ arms, buildArms cfg.upstream = .ok arms) ∨
          (∃ url ∈ configuredUrls cfg.upstream, Down made url.2 url.1) ∨ Refused B cfg made := by
  obtain ⟨made, hcalls, h⟩ := new_ensures O B cfg w
  refine ⟨made, hcalls, fun res hres => ?_, fun e he => (h.failed e he).cases⟩
  have hbuilt := h.built res hres
  exact exists_arms_iff.2 ⟨hbuilt.resolvers, hbuilt.usable⟩

end RustyDns.L3.Construction
