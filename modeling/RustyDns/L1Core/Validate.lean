import RustyDns.L1Core.Matchers
import RustyDns.L1Core.Record
import RustyDns.L1Core.Schedule
import RustyDns.Lib.Fold

/-!
# Config validation

`validate_config` of `rustydns-core/src/config.rs`, section by section in its order, with every
refusal and its message. Warnings are log output. The regex crate is the parameter of
`RegexRules.compile`.

Results:
* `validateConfig_ok_iff`: a config is accepted when every section accepts it.
* `ServerPassed`, `validateServer_ok`: what an accepted server section says of the listeners.
* `noOverlap_iff`: the pairwise overlap loop, as a statement about any two listeners.
-/

namespace RustyDns.L1

open RustyDns.Lib
open RustyDns.Lib.Checks (reject okOr forEach)

/-! ## Listener addresses -/

/-- mirrors crates/rustydns-core/src/config.rs:2042-2050 -/
def normIp : IpAddr → IpAddr
  | .v6 a =>
    match a.toIpv4Mapped with
    | some v4 => .v4 v4
    | none => .v6 a
  | .v4 a => .v4 a

/-- mirrors crates/rustydns-core/src/config.rs:2058-2068 -/
def addrsCompete (a b : IpAddr) : Bool :=
  match normIp a, normIp b with
  | .v4 x, .v4 y => x == y || x == 0 || y == 0
  | .v6 x, .v6 y => x == y || x == 0 || y == 0
  | .v6 x, .v4 _ => x == 0
  | .v4 _, .v6 y => y == 0

/-- The destinations a socket bound to `s` takes traffic for: its own address, every IPv4 address for
`0.0.0.0`, everything for the dual-stack `::`; mapped addresses mean their IPv4 form. -/
def Reaches (s d : IpAddr) : Prop :=
  normIp d = normIp s ∨ (normIp s = .v4 0 ∧ ∃ x, normIp d = .v4 x) ∨ normIp s = .v6 0

theorem reaches_self (s : IpAddr) : Reaches s s := .inl rfl

/-- Of two sockets that compete one takes traffic for the address of the other. -/
theorem addrsCompete_eq_true_iff {a b : IpAddr} :
    addrsCompete a b = true ↔ Reaches a b ∨ Reaches b a := by
  unfold addrsCompete Reaches
  cases normIp a with
  | v4 x =>
    cases normIp b with
    | v4 y =>
      simp only [Bool.or_eq_true, beq_iff_eq, IpAddr.v4.injEq, exists_eq', and_true, reduceCtorEq,
        or_false, eq_comm (a := y) (b := x)]
      tauto
    | v6 y => simp
  | v6 x =>
    cases normIp b with
    | v4 y => simp
    | v6 y =>
      simp only [Bool.or_eq_true, beq_iff_eq, IpAddr.v6.injEq, reduceCtorEq, false_and, false_or,
        eq_comm (a := y) (b := x)]
      tauto

theorem addrsCompete_iff {a b : IpAddr} :
    addrsCompete a b = true ↔ ∃ d, Reaches a d ∧ Reaches b d := by
  rw [addrsCompete_eq_true_iff]
  constructor
  · rintro (h | h)
    · exact ⟨b, h, reaches_self b⟩
    · exact ⟨a, reaches_self a, h⟩
  · rintro ⟨d, ha, hb⟩
    rcases ha with hda | ⟨hzero, hfour⟩ | hany
    · -- the destination is the address of one of them
      refine .inr ?_
      rwa [Reaches, ← hda]
    · rcases hb with hdb | ⟨hzero', -⟩ | hany
      · exact .inl (.inr (.inl ⟨hzero, by rwa [← hdb]⟩))
      · exact .inl (.inl (hzero'.trans hzero.symm))
      · exact .inr (.inr (.inr hany))
    · exact .inl (.inr (.inr hany))

theorem addrsCompete_comm (a b : IpAddr) : addrsCompete a b = addrsCompete b a := by
  rw [Bool.eq_iff_iff, addrsCompete_iff, addrsCompete_iff]
  simp only [and_comm]

/-- `Ipv4Addr::LOCALHOST` or `Ipv6Addr::LOCALHOST`, in the family of `ip`. -/
def loopbackOf : IpAddr → IpAddr
  | .v4 _ => .v4 (.ofOctets 127 0 0 1)
  | .v6 _ => .v6 1

/-- mirrors crates/rustydns-core/src/config.rs:159-185 -/
def MetricsConfig.effectiveListen (m : MetricsConfig) : Except RustyDnsError SocketAddr := do
  let addr ← okOr (parseSocketAddr m.listen)
    (.config s!"metrics.listen `{m.listen.display}` is not a valid socket address")
  let ip := normIp addr.ip
  if ip.isLoopback then pure { ip, port := addr.port }
  else pure { ip := loopbackOf ip, port := addr.port }

inductive Role where
  | plainDns
  | dot
  | doh
  | doq
  | metrics
  deriving DecidableEq, Repr

def Role.label : Role → String
  | .plainDns => "plain DNS"
  | .dot => "DNS-over-TLS"
  | .doh => "DNS-over-HTTPS"
  | .doq => "DNS-over-QUIC"
  | .metrics => "metrics"

/-- Two listeners that the kernel could not tell apart. -/
def overlaps (a b : SocketAddr × Role) : Bool :=
  a.2 != b.2 && a.1.port == b.1.port && addrsCompete a.1.ip b.1.ip

/-- The double loop over the listeners of one transport. -/
def noOverlap (message : SocketAddr × Role → SocketAddr × Role → String) :
    List (SocketAddr × Role) → Except RustyDnsError Unit
  | [] => .ok ()
  | a :: rest => do
    forEach rest fun b => reject (overlaps a b) (.config (message a b))
    noOverlap message rest

def overlapText (a b : SocketAddr × Role) : String :=
  s!"{a.2.label} ({a.1.display}) and {b.2.label} ({b.1.display}) overlap on port {a.1.port} — " ++
    "distinct "

def tcpOverlapText (a b : SocketAddr × Role) : String :=
  overlapText a b ++ "roles cannot share one TCP port (SO_REUSEPORT would hand each connection " ++
    "to a random protocol); give each role its own address/port"

def udpOverlapText (a b : SocketAddr × Role) : String :=
  overlapText a b ++ "roles cannot share one UDP port; give each role its own address/port"

/-- The TCP listeners of a daemon, with the metrics listener at the address it binds. -/
def tcpAddrs (listen : List SocketAddr) (dot doh metrics : Option SocketAddr) :
    List (SocketAddr × Role) :=
  listen.map (·, .plainDns) ++ dot.toList.map (·, .dot) ++ doh.toList.map (·, .doh) ++
    metrics.toList.map (·, .metrics)

def udpAddrs (listen : List SocketAddr) (doq : Option SocketAddr) : List (SocketAddr × Role) :=
  listen.map (·, .plainDns) ++ doq.toList.map (·, .doq)

/-! ## Server -/

/-- The optional listeners, by field. -/
def optionalListeners (cfg : DnsConfig) : List (String × Option Str) :=
  [("server.dot_listen", cfg.server.dotListen),
   ("server.doq_listen", cfg.server.doqListen),
   ("server.doh_listen", cfg.server.dohListen),
   ("metrics.listen", some cfg.metrics.listen)]

def validateListen (cfg : DnsConfig) : Except RustyDnsError Unit := do
  reject (cfg.server.listen = [])
    (.config ("server.listen is empty — configure at least one address:port for plain DNS " ++
      "(e.g. `[\"127.0.0.1:53\"]`)"))
  forEach cfg.server.listen fun l =>
    reject ((parseSocketAddr l).isNone)
      (.config (s!"server.listen entry `{l.display}` is not a valid socket address " ++
        "(expected ip:port, e.g. \"127.0.0.1:53\")"))
  forEach (optionalListeners cfg) fun (field, value) =>
    match value with
    | some v => reject ((parseSocketAddr v).isNone)
        (.config s!"{field} entry `{v.display}` is not a valid socket address")
    | none => .ok ()

/-- A declared zone in the form the loop compares. -/
def declaredForm (zone : Str) : Str :=
  let normalised := zone.trim.toAsciiLowercase
  if normalised.endsWith ['.'] then normalised else normalised ++ ['.']

/-- The loop over `authority.zones`, with the zones seen so far. -/
def validateZones (seen : List Str) : List Str → Except RustyDnsError Unit
  | [] => .ok ()
  | zone :: rest => do
    let label := (declaredForm zone).dropLast
    reject (label = [] ∨ '.' ∈ label)
      (.config (s!"authority.zones entry `{zone.display}` must be a single-label zone name " ++
        "ending with '.' (e.g. \"home.\" or \"localhost.\") — it declares one internal " ++
        "top-level domain, nothing more"))
    reject (declaredForm zone ∈ seen)
      (.config (s!"authority.zones declares `{zone.display}` more than once (case-insensitive, " ++
        "trailing dot optional)"))
    validateZones (declaredForm zone :: seen) rest

def validateMeshZones (cfg : DnsConfig) : Except RustyDnsError Unit := do
  reject (!cfg.server.meshZone.endsWith ['.'])
    (.config (s!"server.mesh_zone `{cfg.server.meshZone.display}` must end with '.' " ++
      "(it is a DNS zone name)"))
  reject (!cfg.authority.meshZone.endsWith ['.'])
    (.config (s!"authority.mesh_zone `{cfg.authority.meshZone.display}` must end with '.' " ++
      "(it is a DNS zone name)"))
  validateZones [] cfg.authority.zones

def validateOverlaps (cfg : DnsConfig) : Except RustyDnsError Unit := do
  let plainListens := cfg.server.listen.filterMap parseSocketAddr
  noOverlap tcpOverlapText (tcpAddrs plainListens (cfg.server.dotListen.bind parseSocketAddr)
    (cfg.server.dohListen.bind parseSocketAddr) cfg.metrics.effectiveListen.toOption)
  noOverlap udpOverlapText (udpAddrs plainListens (cfg.server.doqListen.bind parseSocketAddr))

def tlsConfigured (server : ServerConfig) : Bool :=
  server.tlsCertPath.isSome && server.tlsKeyPath.isSome

def validateDohBind (cfg : DnsConfig) : Except RustyDnsError Unit :=
  match cfg.server.dohListen.bind parseSocketAddr with
  | some doh =>
    reject (!tlsConfigured cfg.server && !(normIp doh.ip).isLoopback)
      (.config (s!"server.doh_listen `{doh.display}` is not a loopback address and no TLS " ++
        "cert/key is configured; refusing to serve plaintext DNS-over-HTTPS on a public " ++
        "interface. Bind DoH to 127.0.0.1 behind a TLS-terminating reverse proxy. " ++
        "server.tls_cert_path + server.tls_key_path only PERMIT a non-loopback " ++
        "bind — they do not add TLS to the DoH port itself, which stays " ++
        "plaintext HTTP/2 behind an operator-provided reverse proxy."))
  | none => .ok ()

/-- mirrors crates/rustydns-core/src/config.rs:1916-2196 -/
def validateServer (cfg : DnsConfig) : Except RustyDnsError Unit := do
  validateListen cfg
  validateMeshZones cfg
  validateOverlaps cfg
  validateDohBind cfg
  reject ((cfg.server.dotListen.isSome || cfg.server.doqListen.isSome) &&
      !tlsConfigured cfg.server)
    (.config ("server.dot_listen and/or server.doq_listen is set but server.tls_cert_path " ++
      "and/or server.tls_key_path are missing. DNS-over-TLS and DNS-over-QUIC require a " ++
      "TLS certificate. Set both fields to the PEM files, or remove the listener(s)."))

/-! ## Upstream -/

def httpText : Str := "http://".toList

def httpsText : Str := "https://".toList

/-- The refusals of a scheme that does not match the protocol. -/
structure SchemeTexts where
  notHttps : Str → String
  notQuic : Str → String
  hasScheme : Str → String

def validateScheme (texts : SchemeTexts) (protocol : UpstreamProtocol) (url : Str) :
    Except RustyDnsError Unit :=
  match protocol with
  | .doh => reject (!url.startsWith httpsText) (.config (texts.notHttps url))
  | .doq => reject (!(url.startsWith "quic://".toList || url.startsWith "h3://".toList))
      (.config (texts.notQuic url))
  | .plain => reject (url.containsStr "://".toList) (.config (texts.hasScheme url))
  | .odoh => .ok ()

def globalSchemeTexts : SchemeTexts where
  notHttps url :=
    s!"upstream.protocol = \"doh\" but resolver `{url.display}` is not an https:// URL. " ++
      "DoH endpoints must use the https:// scheme. Either switch protocol to " ++
      "match the URL or use an https:// URL."
  notQuic url :=
    s!"upstream.protocol = \"doq\" but resolver `{url.display}` is not a quic:// URL. " ++
      "DoQ endpoints must use the quic:// scheme (RFC 9250). Either switch " ++
      "protocol to \"doh\" or use a quic:// URL."
  hasScheme url :=
    s!"upstream.protocol = \"plain\" but resolver `{url.display}` contains a URL scheme. " ++
      "Plain mode uses bare host:port (e.g. \"8.8.8.8:53\") — drop the scheme " ++
      "or switch protocol to match it."

def routeSchemeTexts (idx : Nat) : SchemeTexts where
  notHttps url :=
    s!"upstream.routes[{idx}].protocol = \"doh\" but resolver `{url.display}` is not " ++
      "an https:// URL. DoH endpoints must use the https:// scheme."
  notQuic url :=
    s!"upstream.routes[{idx}].protocol = \"doq\" but resolver `{url.display}` is not " ++
      "a quic:// URL. DoQ endpoints must use the quic:// scheme (RFC 9250)."
  hasScheme url :=
    s!"upstream.routes[{idx}].protocol = \"plain\" but resolver `{url.display}` " ++
      "contains a URL scheme. Plain mode uses bare host:port (e.g. \"192.168.1.1:53\")."

def validateOdoh (cfg : DnsConfig) : Except RustyDnsError Unit :=
  if cfg.upstream.protocol = .odoh then do
    forEach cfg.upstream.resolvers fun url =>
      reject (!url.startsWith httpsText)
        (.config (s!"upstream.protocol = \"odoh\" but target resolver `{url.display}` is not an " ++
          "https:// URL. The ODoH target must be an https:// endpoint."))
    reject (cfg.upstream.odohProxies = [])
      (.config ("upstream.protocol = \"odoh\" requires at least one upstream.odoh_proxies entry " ++
        "(the oblivious proxy URLs that relay the encrypted query to the target). For the " ++
        "anonymity guarantee to hold, every proxy MUST be operated independently of the " ++
        "target — if one party controls both, it can correlate client IP with query."))
    forEach cfg.upstream.odohProxies fun p =>
      reject (!p.startsWith httpsText)
        (.config s!"upstream.odoh_proxies entry `{p.display}` must be an https:// URL.")
  else
    reject (cfg.upstream.odohProxies ≠ [])
      (.config ("upstream.odoh_proxies is set but upstream.protocol is not \"odoh\". The " ++
        "oblivious proxies are only used by the ODoH arm; set protocol = \"odoh\" or remove them."))

def validateResolver (protocol : UpstreamProtocol) (url : Str) : Except RustyDnsError Unit := do
  reject (url = []) (.config "upstream.resolvers contains an empty URL")
  reject (url.startsWith httpText)
    (.config (s!"upstream resolver `{url.display}` uses plain HTTP — only https:// or quic:// " ++
      "resolvers are allowed. DNS queries sent over plain HTTP are visible to any network " ++
      "observer."))
  validateScheme globalSchemeTexts protocol url

def validateRouteResolver (idx : Nat) (zone : Str) (protocol : UpstreamProtocol) (url : Str) :
    Except RustyDnsError Unit := do
  reject (url = [])
    (.config (s!"upstream.routes[{idx}] for zone `{zone.display}` contains an empty resolver " ++
      "URL"))
  reject (url.startsWith httpText)
    (.config (s!"upstream.routes[{idx}] resolver `{url.display}` uses plain HTTP — only https:// " ++
      "or quic:// resolvers are allowed. DNS queries sent over plain HTTP are visible " ++
      "to any network observer."))
  validateScheme (routeSchemeTexts idx) protocol url
  -- the global list has no such arm: there ODoH was checked before
  reject (protocol = .odoh)
    (.config (s!"upstream.routes[{idx}].protocol = \"odoh\" is not supported — ODoH (RFC " ++
      "9230) applies only to the global upstream (it needs upstream.odoh_proxies), " ++
      "not to a conditional-forwarding route."))

/-- The loop over the routes, with the zones seen so far. -/
def validateRoutes (seen : List Str) : List (UpstreamRoute × Nat) → Except RustyDnsError Unit
  | [] => .ok ()
  | (route, idx) :: rest => do
    let normalised := route.zone.trim.toAsciiLowercase
    reject (route.zone.trim = [])
      (.config (s!"upstream.routes[{idx}].zone is empty — every route must name a DNS zone " ++
        "(e.g. `lan.`)"))
    reject (!route.zone.endsWith ['.'])
      (.config (s!"upstream.routes[{idx}].zone `{route.zone.display}` must end with '.' (it is a " ++
        "DNS zone name)"))
    reject (normalised = ['.'])
      (.config (s!"upstream.routes[{idx}].zone `.` is the root zone — use `upstream.resolvers` " ++
        "for the default route instead"))
    reject (normalised ∈ seen)
      (.config (s!"upstream.routes[{idx}].zone `{normalised.display}` is configured twice — each " ++
        "zone may appear in at most one route"))
    reject (route.resolvers = [])
      (.config (s!"upstream.routes[{idx}] for zone `{normalised.display}` has no resolvers — at " ++
        "least one resolver URL is required"))
    forEach route.resolvers fun url => validateRouteResolver idx normalised route.protocol url
    validateRoutes (normalised :: seen) rest

/-- mirrors crates/rustydns-core/src/config.rs:2197-2434 -/
def validateUpstream (cfg : DnsConfig) : Except RustyDnsError Unit := do
  reject (cfg.upstream.resolvers = [])
    (.config "upstream.resolvers is empty — at least one DoH/DoQ resolver URL is required")
  validateOdoh cfg
  forEach cfg.upstream.resolvers fun url => validateResolver cfg.upstream.protocol url
  reject (cfg.upstream.timeoutMs = 0)
    (.config "upstream.timeout_ms = 0 is invalid — use a positive timeout in milliseconds")
  reject (500000 < cfg.upstream.maxCacheEntries)
    (.config (s!"upstream.max_cache_entries = {cfg.upstream.maxCacheEntries} exceeds the maximum " ++
      "of 500,000. This would likely OOM Pi Zero 2 W class hardware (512 MiB RAM). " ++
      "Reduce to a value that fits within the 30 MiB idle RSS target."))
  validateRoutes [] cfg.upstream.routes.zipIdx

/-! ## Blocklist -/

/-- Non-empty labels of a dotted name. -/
def labelCount (name : Str) : Nat := ((name.splitBy (· == '.')).filter (· ≠ [])).length

/-- mirrors crates/rustydns-core/src/config.rs:2518-2535 -/
def rejectOverbroadAllowlist (entries : List Str) (ctx : String) : Except RustyDnsError Unit :=
  forEach entries fun entry =>
    let bare := (entry.trim.trimStartStr "*.".toList).trimStartMatches '.'
    reject (labelCount bare ≤ 1)
      (.config (s!"{ctx} entry `{bare.display}` is a single-label or TLD-level wildcard. " ++
        "This would allowlist an entire TLD (e.g. all .com domains). " ++
        "Allowlist entries must have at least two labels (e.g. `example.com`)."))

/-- The loop over the groups, with the names seen so far. -/
def validateGroups (seen : List Str) : List (BlocklistGroup × Nat) → Except RustyDnsError Unit
  | [] => .ok ()
  | (group, idx) :: rest => do
    reject (group.name.trim = [])
      (.config s!"blocklist.groups[{idx}].name is empty — every group must be named")
    reject (group.name ∈ seen)
      (.config (s!"blocklist.groups[{idx}].name `{group.name.display}` is defined more than " ++
        "once"))
    forEach (group.sources ++ group.trustedRpzSources) fun url =>
      reject (url.startsWith httpText)
        (.config (s!"blocklist.groups[{idx}] (`{group.name.display}`) source `{url.display}` " ++
          "uses plain HTTP — only https:// sources are allowed."))
    rejectOverbroadAllowlist group.allowlist s!"blocklist.groups[{idx}].allowlist"
    validateGroups (group.name :: seen) rest

def validateSources (blocklist : BlocklistConfig) : Except RustyDnsError Unit := do
  forEach blocklist.sources fun source =>
    reject (source.startsWith httpText)
      (.config (s!"blocklist source `{source.display}` uses plain HTTP — only https:// sources " ++
        "are allowed. A blocklist fetched over HTTP can be tampered with in transit, allowing an " ++
        "attacker to inject allow/block rules. Use an https:// URL or a local file instead."))
  forEach blocklist.trustedRpzSources fun source =>
    reject (source.startsWith httpText)
      (.config (s!"blocklist.trusted_rpz_sources entry `{source.display}` uses plain HTTP — " ++
        "only https:// sources are allowed"))

def validateFetch (blocklist : BlocklistConfig) : Except RustyDnsError Unit := do
  reject (blocklist.fetchTimeoutMs = 0)
    (.config ("blocklist.fetch_timeout_ms = 0 is invalid — use a positive timeout in " ++
      "milliseconds"))
  reject (blocklist.maxFetchBytes = 0)
    (.config "blocklist.max_fetch_bytes = 0 is invalid — use a positive limit")
  reject (100 * 1024 * 1024 < blocklist.maxFetchBytes)
    (.config (s!"blocklist.max_fetch_bytes = {blocklist.maxFetchBytes} exceeds the maximum of " ++
      "100 MiB. Reduce to a safer limit."))
  reject (0 < blocklist.reloadIntervalSecs ∧ blocklist.reloadIntervalSecs < 300)
    (.config (s!"blocklist.reload_interval_secs = {blocklist.reloadIntervalSecs} is too short. " ++
      "Minimum is 300 seconds (5 minutes) " ++
      "to avoid abusing blocklist CDNs. Set to 0 to reload only on SIGHUP."))

/-- mirrors crates/rustydns-core/src/config.rs:2436-2566 -/
def validateBlocklist (build : RegexBuild) (cfg : DnsConfig) : Except RustyDnsError Unit := do
  validateSources cfg.blocklist
  validateFetch cfg.blocklist
  reject (cfg.blocklist.blockResponse = .sinkhole ∧ (parseIpAddr cfg.blocklist.sinkholeIp).isNone)
    (.config (s!"blocklist.sinkhole_ip `{cfg.blocklist.sinkholeIp.display}` is not a valid IPv4 " ++
      "or IPv6 address"))
  let _ ← (IpDenylist.parse cfg.blocklist.responseIpDenylist).mapError fun e =>
    .config s!"blocklist.response_ip_denylist contains an invalid entry: {e}"
  let _ ← (RegexRules.compile build cfg.blocklist.regexRules).mapError fun e =>
    .config s!"blocklist.regex_rules is invalid: {e}"
  rejectOverbroadAllowlist cfg.blocklist.allowlist "blocklist.allowlist"
  validateGroups [] cfg.blocklist.groups.zipIdx

/-! ## Privacy, metrics, rate limit -/

def minFileBytes : Nat := 4096

def maxFileBytes : Nat := 1024 * 1024 * 1024

def validateDiskLog (privacy : PrivacyConfig) : Except RustyDnsError Unit := do
  match privacy.queryLogDiskPath with
  | none =>
    throw (.config ("privacy.query_log_to_disk = true requires privacy.query_log_disk_path " ++
      "to be set to a writable file path."))
  | some p =>
    reject (p.trim = [])
      (.config ("privacy.query_log_disk_path must not be empty when " ++
        "query_log_to_disk = true."))
  reject (privacy.queryLogMaxFiles = 0)
    (.config "privacy.query_log_max_files must be at least 1.")
  reject (privacy.queryLogMaxFileBytes < minFileBytes ∨ maxFileBytes < privacy.queryLogMaxFileBytes)
    (.config (s!"privacy.query_log_max_file_bytes = {privacy.queryLogMaxFileBytes} is out of " ++
      s!"range; must be between {minFileBytes} and {maxFileBytes} bytes."))

/-- mirrors crates/rustydns-core/src/config.rs:2568-2630 -/
def validatePrivacy (cfg : DnsConfig) : Except RustyDnsError Unit := do
  reject (100000 < cfg.privacy.queryLogRingSize)
    (.config (s!"privacy.query_log_ring_size = {cfg.privacy.queryLogRingSize} exceeds the " ++
      "maximum of 100,000 entries. " ++
      "This would use excessive memory. Reduce the ring buffer size."))
  if cfg.privacy.queryLogToDisk then validateDiskLog cfg.privacy else .ok ()

/-- mirrors crates/rustydns-core/src/config.rs:2632-2659 -/
def validateMetrics (cfg : DnsConfig) : Except RustyDnsError Unit :=
  reject ((parseSocketAddr cfg.metrics.listen).isNone)
    (.config s!"metrics.listen `{cfg.metrics.listen.display}` is not a valid socket address")

/-- mirrors crates/rustydns-core/src/config.rs:2661-2696 -/
def validateRateLimit (limit : RateLimitConfig) : Except RustyDnsError Unit :=
  if limit.enabled then do
    reject (limit.qps = 0)
      (.config ("rate_limit.qps = 0 is invalid — set rate_limit.enabled = false to disable, " ++
        "or use a positive sustained-rate value"))
    reject (limit.burst = 0)
      (.config "rate_limit.burst = 0 is invalid — burst must be at least 1")
    reject (limit.burst < limit.qps)
      (.config (s!"rate_limit.burst = {limit.burst} is smaller than rate_limit.qps = " ++
        s!"{limit.qps} — burst must be at least the sustained rate, otherwise the limiter would " ++
        "refuse legitimate steady-state traffic"))
    reject (limit.maxTrackedClients = 0)
      (.config ("rate_limit.max_tracked_clients = 0 is invalid — bucket table must hold at " ++
        "least one IP"))
    reject (1000000 < limit.maxTrackedClients)
      (.config (s!"rate_limit.max_tracked_clients = {limit.maxTrackedClients} exceeds the " ++
        "maximum of 1,000,000 — " ++
        "an unbounded bucket table would OOM the daemon under a forge-IP flood"))
  else .ok ()

/-! ## Per-node policy and rewrites -/

def validatePolicyClient (idx : Nat) (policy : NodePolicy) : Except RustyDnsError Unit := do
  match policy.nodeId, policy.clientIp with
  | none, none =>
    throw (.config s!"policy[{idx}] must set at least one of `node_id` or `client_ip`")
  | some nodeId, _ =>
    reject (!nodeId.startsWith "ed25519:".toList)
      (.config (s!"policy[{idx}].node_id `{nodeId.display}` does not start with `ed25519:`. " ++
        "Expected format: `ed25519:<base64-pubkey>`."))
  | none, some _ => .ok ()
  match policy.clientIp with
  | some ip =>
    reject ((parseIpAddr ip).isNone)
      (.config (s!"policy[{idx}].client_ip `{ip.display}` is not a valid IPv4 or IPv6 literal"))
  | none => .ok ()

/-- mirrors crates/rustydns-core/src/config.rs:2700-2743 -/
def validatePolicy (groups : List BlocklistGroup) (idx : Nat) (policy : NodePolicy) :
    Except RustyDnsError Unit := do
  validatePolicyClient idx policy
  let _ ← (BlockSchedule.compile policy.blockWindows).mapError fun e =>
    .config s!"policy[{idx}] has an invalid block window: {e}"
  match policy.blocklistGroup with
  | some g =>
    reject (!groups.any (·.name == g))
      (.config (s!"policy[{idx}].blocklist_group `{g.display}` does not match any " ++
        "[[blocklist.groups]] name"))
  | none => .ok ()

/-- A rewrite name or target in the form the loop check compares. -/
def rewriteForm (name : Str) : Str := (name.trim.trimEndMatches '.').toAsciiLowercase ++ ['.']

def validateRewriteAction (idx : Nat) (rule : RewriteRule) : Except RustyDnsError Unit := do
  let actionCount := rule.address.isSome.toNat + rule.target.isSome.toNat + rule.block.toNat
  reject (actionCount = 0)
    (.config (s!"rewrite[{idx}] (`{rule.name.display}`) sets no action — set exactly one of " ++
      "`address`, `target`, or `block = true`"))
  reject (1 < actionCount)
    (.config (s!"rewrite[{idx}] (`{rule.name.display}`) sets more than one of " ++
      "`address`/`target`/`block` — they are mutually exclusive"))
  match rule.address with
  | some addr =>
    reject ((parseIpAddr addr).isNone)
      (.config (s!"rewrite[{idx}].address `{addr.display}` is not a valid IPv4 or IPv6 address"))
  | none => .ok ()
  match rule.target with
  | some target => reject (target.trim = []) (.config s!"rewrite[{idx}].target is empty")
  | none => .ok ()

/-- mirrors crates/rustydns-core/src/config.rs:2747-2832 -/
def validateRewrite (idx : Nat) (rule : RewriteRule) : Except RustyDnsError Unit := do
  reject (rule.name.trim = [])
    (.config s!"rewrite[{idx}].name is empty — every rewrite must name a domain")
  validateRewriteAction idx rule
  -- without a target the other side is the empty default, so a name of dots only is refused here
  reject (rule.address.isNone ∧ rewriteForm rule.name = rewriteForm (rule.target.getD []))
    (.config (s!"rewrite[{idx}] (`{rule.name.trim.display}`): name and target must differ — a " ++
      "self-referential rewrite creates an infinite CNAME loop"))
  let bare := ((rule.name.trim.trimStartStr "*.".toList).trimStartMatches '.').trimEndMatches '.'
  let isWildcard := rule.name.trim.startsWith "*.".toList || rule.name.trim.startsWith ['.']
  reject (isWildcard ∧ labelCount bare ≤ 1)
    (.config (s!"rewrite[{idx}].name `{rule.name.display}` is a single-label or TLD-level " ++
      "wildcard. A wildcard rewrite must have at least two labels (e.g. `*.example.com`)."))

/-! ## The whole config -/

/-- mirrors crates/rustydns-core/src/config.rs:1916-2832 -/
def validateConfig (build : RegexBuild) (cfg : DnsConfig) : Except RustyDnsError Unit := do
  validateServer cfg
  validateUpstream cfg
  validateBlocklist build cfg
  validatePrivacy cfg
  validateMetrics cfg
  validateRateLimit cfg.rateLimit
  forEach cfg.policy.zipIdx fun (policy, idx) => validatePolicy cfg.blocklist.groups idx policy
  forEach cfg.rewrite.zipIdx fun (rule, idx) => validateRewrite idx rule

theorem validateConfig_ok_iff {build : RegexBuild} {cfg : DnsConfig} :
    validateConfig build cfg = .ok () ↔
      validateServer cfg = .ok () ∧ validateUpstream cfg = .ok () ∧
      validateBlocklist build cfg = .ok () ∧ validatePrivacy cfg = .ok () ∧
      validateMetrics cfg = .ok () ∧ validateRateLimit cfg.rateLimit = .ok () ∧
      (∀ p ∈ cfg.policy.zipIdx, validatePolicy cfg.blocklist.groups p.2 p.1 = .ok ()) ∧
      ∀ p ∈ cfg.rewrite.zipIdx, validateRewrite p.2 p.1 = .ok () := by
  simp only [validateConfig, Checks.seq_ok_iff, Checks.forEach_ok_iff]

/-! ## What an accepted server section says -/

/-- Addresses by listener, the metrics one where it really binds. -/
structure Listeners where
  listen : List SocketAddr
  dot : Option SocketAddr
  doq : Option SocketAddr
  doh : Option SocketAddr
  metrics : Option SocketAddr
  deriving DecidableEq, Repr

def Listeners.tcp (l : Listeners) : List (SocketAddr × Role) :=
  tcpAddrs l.listen l.dot l.doh l.metrics

def Listeners.udp (l : Listeners) : List (SocketAddr × Role) := udpAddrs l.listen l.doq

/-- The addresses a config asks for. -/
def DnsConfig.listeners (cfg : DnsConfig) : Listeners where
  listen := cfg.server.listen.filterMap parseSocketAddr
  dot := cfg.server.dotListen.bind parseSocketAddr
  doq := cfg.server.doqListen.bind parseSocketAddr
  doh := cfg.server.dohListen.bind parseSocketAddr
  metrics := cfg.metrics.effectiveListen.toOption

/-- No two listeners of different roles overlap. -/
def RolesApart (addrs : List (SocketAddr × Role)) : Prop :=
  ∀ a ∈ addrs, ∀ b ∈ addrs, overlaps a b = false

/-- What the server section guarantees: every address text reads as an address, and the roles are
apart. -/
structure ServerPassed (cfg : DnsConfig) : Prop where
  listen : cfg.server.listen.map parseSocketAddr = cfg.listeners.listen.map some
  dot : cfg.server.dotListen.map parseSocketAddr = cfg.listeners.dot.map some
  doq : cfg.server.doqListen.map parseSocketAddr = cfg.listeners.doq.map some
  doh : cfg.server.dohListen.map parseSocketAddr = cfg.listeners.doh.map some
  metrics : (parseSocketAddr cfg.metrics.listen).isSome = true
  tcp : RolesApart cfg.listeners.tcp
  udp : RolesApart cfg.listeners.udp
  dohBind : ∀ a, cfg.listeners.doh = some a →
    tlsConfigured cfg.server = true ∨ (normIp a.ip).isLoopback = true

theorem overlaps_comm (a b : SocketAddr × Role) : overlaps a b = overlaps b a := by
  unfold overlaps
  rw [addrsCompete_comm, bne_comm, BEq.comm (a := a.1.port)]

theorem overlaps_self (a : SocketAddr × Role) : overlaps a a = false := by simp [overlaps]

theorem noOverlap_iff {message : SocketAddr × Role → SocketAddr × Role → String}
    {addrs : List (SocketAddr × Role)} : noOverlap message addrs = .ok () ↔ RolesApart addrs := by
  induction addrs with
  | nil => simp [noOverlap, RolesApart]
  | cons a rest ih =>
    simp only [noOverlap, Checks.seq_ok_iff, Checks.forEach_ok_iff, Checks.reject_ok_iff, ih,
      RolesApart, List.forall_mem_cons, overlaps_self, true_and, Bool.not_eq_true]
    constructor
    · intro h
      obtain ⟨ha, hrest⟩ := h
      refine ⟨ha, fun b hb => ⟨?_, hrest b hb⟩⟩
      rw [overlaps_comm, ha b hb]
    · intro h
      obtain ⟨ha, hrest⟩ := h
      exact ⟨ha, fun b hb => (hrest b hb).2⟩

/-- An optional listener that passed its check. -/
theorem optional_map_some {field : String} {o : Option Str}
    (h : (match o with
      | some v => reject ((parseSocketAddr v).isNone)
          (RustyDnsError.config s!"{field} entry `{v.display}` is not a valid socket address")
      | none => .ok ()) = .ok ()) :
    o.map parseSocketAddr = (o.bind parseSocketAddr).map some := by
  cases o with
  | none => rfl
  | some v =>
    cases ha : parseSocketAddr v with
    | none => simp [ha] at h
    | some a => simp [ha]

theorem effectiveListen_of_parse {m : MetricsConfig} {a : SocketAddr}
    (h : parseSocketAddr m.listen = some a) :
    m.effectiveListen = .ok
      { ip := if (normIp a.ip).isLoopback then normIp a.ip else loopbackOf (normIp a.ip)
        port := a.port } := by
  simp only [MetricsConfig.effectiveListen, h, okOr, bind, Except.bind]
  by_cases hl : (normIp a.ip).isLoopback = true
  · rw [if_pos hl, if_pos hl]
    rfl
  · rw [if_neg hl, if_neg hl]
    rfl

theorem validateOverlaps_ok_iff {cfg : DnsConfig} :
    validateOverlaps cfg = .ok () ↔ RolesApart cfg.listeners.tcp ∧ RolesApart cfg.listeners.udp := by
  simp only [validateOverlaps, Checks.seq_ok_iff, noOverlap_iff]
  rfl

theorem validateServer_ok {cfg : DnsConfig} (h : validateServer cfg = .ok ()) :
    ServerPassed cfg := by
  simp only [validateServer, validateListen, Checks.seq_ok_iff, Checks.forEach_ok_iff,
    Checks.reject_ok_iff, optionalListeners, List.forall_mem_cons, Bool.not_eq_true,
    validateOverlaps_ok_iff] at h
  obtain ⟨⟨-, hlisten, hdot, hdoq, hdoh, hmetrics, -⟩, -, ⟨htcp, hudp⟩, hbind, -⟩ := h
  refine ⟨Checks.map_eq_map_some hlisten, optional_map_some hdot, optional_map_some hdoq,
    optional_map_some hdoh, Option.isNone_eq_false_iff.1 hmetrics, htcp, hudp, fun a ha => ?_⟩
  rw [validateDohBind, show cfg.server.dohListen.bind parseSocketAddr = some a from ha] at hbind
  simpa [or_iff_not_imp_left] using hbind

/-! ## What an accepted upstream section says -/

/-- What a route that passed says of its URLs. -/
theorem validateRoutes_ok {seen : List Str} {routes : List (UpstreamRoute × Nat)}
    (h : validateRoutes seen routes = .ok ()) : ∀ p ∈ routes, p.1.resolvers ≠ [] ∧
      ∀ url ∈ p.1.resolvers, validateScheme (routeSchemeTexts p.2) p.1.protocol url = .ok () ∧
        p.1.protocol ≠ .odoh := by
  induction routes generalizing seen with
  | nil => simp
  | cons p rest ih =>
    obtain ⟨route, idx⟩ := p
    simp only [validateRoutes, validateRouteResolver, Checks.seq_ok_iff, Checks.forEach_ok_iff,
      Checks.reject_ok_iff] at h
    obtain ⟨-, -, -, -, hne, hurls, hrest⟩ := h
    refine List.forall_mem_cons.2 ⟨⟨hne, fun url hurl => ?_⟩, ih hrest⟩
    obtain ⟨-, -, hscheme, hodoh⟩ := hurls url hurl
    exact ⟨hscheme, hodoh⟩

/-- What the upstream section guarantees of the URLs: the scheme the protocol asks for. -/
structure UpstreamPassed (upstream : UpstreamConfig) : Prop where
  nonempty : upstream.resolvers ≠ []
  scheme : ∀ url ∈ upstream.resolvers,
    validateScheme globalSchemeTexts upstream.protocol url = .ok ()
  routes : ∀ route ∈ upstream.routes, route.protocol ≠ .odoh ∧ ∃ idx, ∀ url ∈ route.resolvers,
    validateScheme (routeSchemeTexts idx) route.protocol url = .ok ()

theorem validateUpstream_ok {cfg : DnsConfig} (h : validateUpstream cfg = .ok ()) :
    UpstreamPassed cfg.upstream := by
  simp only [validateUpstream, validateResolver, Checks.seq_ok_iff, Checks.forEach_ok_iff,
    Checks.reject_ok_iff] at h
  obtain ⟨hne, -, hurls, -, -, hroutes⟩ := h
  refine ⟨hne, fun url hurl => (hurls url hurl).2.2, fun route hroute => ?_⟩
  obtain ⟨idx, hidx⟩ := List.mem_iff_getElem?.1 hroute
  have hmem : (route, idx) ∈ cfg.upstream.routes.zipIdx := List.mem_zipIdx_iff_getElem?.2 hidx
  obtain ⟨hsome, hpassed⟩ := validateRoutes_ok hroutes _ hmem
  obtain ⟨url, hurl⟩ := List.exists_mem_of_ne_nil _ hsome
  exact ⟨(hpassed url hurl).2, idx, fun url hurl => (hpassed url hurl).1⟩

/-! ## What an accepted blocklist section says -/

theorem validateGroups_names {seen : List Str} {groups : List (BlocklistGroup × Nat)}
    (h : validateGroups seen groups = .ok ()) :
    (groups.map (·.1.name)).Nodup ∧ ∀ name ∈ groups.map (·.1.name), name ∉ seen := by
  refine Checks.nodup_of_seen (P := fun seen l => validateGroups seen l = .ok ())
    (fun seen p rest hpass => ?_) h
  simp only [validateGroups, Checks.seq_ok_iff, Checks.reject_ok_iff] at hpass
  obtain ⟨-, hnew, -, -, hrest⟩ := hpass
  exact ⟨hnew, hrest⟩

/-- The groups of a config that passed have different names. -/
theorem validateBlocklist_names {build : RegexBuild} {cfg : DnsConfig}
    (h : validateBlocklist build cfg = .ok ()) : (cfg.blocklist.groups.map (·.name)).Nodup := by
  simp only [validateBlocklist, Checks.bind_ok_iff] at h
  obtain ⟨-, -, -, -, -, -, -, -, -, -, -, -, hgroups⟩ := h
  have hnames := (validateGroups_names hgroups).1
  rwa [Fold.map_zipIdx_fst] at hnames

theorem ServerPassed.of_validateConfig {build : RegexBuild} {cfg : DnsConfig}
    (h : validateConfig build cfg = .ok ()) : ServerPassed cfg :=
  validateServer_ok (validateConfig_ok_iff.1 h).1

end RustyDns.L1
