import RustyDns.L1Core.Record

/-!
# The configuration

The sections of `rustydns.toml` after deserialisation (`rustydns-core/src/config.rs`), with the
defaults each section fills in. Paths are strings; `u32`/`u64`/`usize` settings are naturals, so
what is proved for every config holds for the ones the types can hold. `min_tls_version` has one
value and is left out.
-/

namespace RustyDns.L1

open RustyDns.Lib

/-- mirrors crates/rustydns-core/src/config.rs, `RewriteRule` -/
structure RewriteRule where
  name : Str
  address : Option Str := none
  target : Option Str := none
  block : Bool := false
  deriving DecidableEq, Repr

structure SafeSearchConfig where
  enabled : Bool := false
  google : Bool := true
  bing : Bool := true
  duckduckgo : Bool := true
  youtube : Bool := true
  deriving DecidableEq, Repr

/-- One of the built-in rules. -/
def SafeSearchConfig.cname (name target : String) : RewriteRule where
  name := name.toList
  target := some target.toList

/-- mirrors crates/rustydns-core/src/config.rs:345-381 -/
def SafeSearchConfig.rewriteRules (s : SafeSearchConfig) : List RewriteRule :=
  if !s.enabled then []
  else
    (if s.google then
      [cname "google.com" "forcesafesearch.google.com.",
        cname "www.google.com" "forcesafesearch.google.com."] else []) ++
    (if s.bing then
      [cname "bing.com" "strict.bing.com.", cname "www.bing.com" "strict.bing.com."] else []) ++
    (if s.duckduckgo then [cname "duckduckgo.com" "safe.duckduckgo.com."] else []) ++
    (if s.youtube then
      ["youtube.com", "www.youtube.com", "m.youtube.com", "youtubei.googleapis.com",
        "youtube.googleapis.com"].map (cname · "restrictmoderate.youtube.com.") else [])

structure ServerConfig where
  listen : List Str := ["127.0.0.53:53".toList]
  meshZone : Str := "rustynet.".toList
  dohListen : Option Str := some "127.0.0.1:8053".toList
  dotListen : Option Str := none
  doqListen : Option Str := none
  tlsCertPath : Option Str := none
  tlsKeyPath : Option Str := none
  deriving DecidableEq, Repr

inductive UpstreamProtocol where
  | doh
  | doq
  | plain
  | odoh
  deriving DecidableEq, Repr

structure UpstreamRoute where
  zone : Str
  resolvers : List Str
  protocol : UpstreamProtocol := .doh
  deriving DecidableEq, Repr

structure UpstreamConfig where
  resolvers : List Str :=
    ["https://cloudflare-dns.com/dns-query".toList, "https://dns.quad9.net/dns-query".toList]
  protocol : UpstreamProtocol := .doh
  failClosed : Bool := true
  dnssecValidation : Bool := true
  timeoutMs : Nat := 5000
  maxCacheEntries : Nat := 10000
  blockPrivateRdata : Bool := false
  routes : List UpstreamRoute := []
  odohProxies : List Str := []
  deriving DecidableEq, Repr

structure StaticRecord where
  name : Str
  recordType : Str
  address : Option Str := none
  target : Option Str := none
  ttl : Nat
  clientFilter : Option Str := none
  deriving DecidableEq, Repr

@[ext] structure AuthorityConfig where
  meshZoneBundlePath : Option Str := none
  meshZoneVerifierKeyPath : Option Str := none
  meshZoneMaxAgeSecs : Nat := 600
  meshZone : Str := "rustynet.".toList
  staticRecords : List StaticRecord := []
  zones : List Str := []
  pollIntervalSecs : Nat := 30
  deriving DecidableEq, Repr

inductive BlockResponse where
  | nxdomain
  | sinkhole
  | refused
  deriving DecidableEq, Repr

structure BlocklistGroup where
  name : Str
  sources : List Str := []
  localFiles : List Str := []
  trustedRpzSources : List Str := []
  allowlist : List Str := []
  deriving DecidableEq, Repr

@[ext] structure BlocklistConfig where
  sources : List Str :=
    ["https://raw.githubusercontent.com/StevenBlack/hosts/master/hosts".toList]
  trustedRpzSources : List Str := []
  localFiles : List Str := []
  blockResponse : BlockResponse := .nxdomain
  sinkholeIp : Str := "0.0.0.0".toList
  reloadIntervalSecs : Nat := 86400
  fetchTimeoutMs : Nat := 30000
  maxFetchBytes : Nat := 50 * 1024 * 1024
  allowlist : List Str := []
  blockCnameCloaking : Bool := true
  responseIpDenylist : List Str := []
  regexRules : List Str := []
  groups : List BlocklistGroup := []
  deriving DecidableEq, Repr

structure PrivacyConfig where
  queryMinimization : Bool := true
  noEdnsClientSubnet : Bool := true
  upstreamPadding : Bool := true
  randomizeUpstreamSelection : Bool := true
  queryLogToDisk : Bool := false
  queryLogDiskPath : Option Str := none
  queryLogMaxFileBytes : Nat := 10 * 1024 * 1024
  queryLogMaxFiles : Nat := 5
  queryLogRingSize : Nat := 1000
  logClientIps : Bool := false
  deriving DecidableEq, Repr

structure MetricsConfig where
  listen : Str := "127.0.0.1:9153".toList
  path : Str := "/metrics".toList
  deriving DecidableEq, Repr

structure RateLimitConfig where
  enabled : Bool := true
  qps : Nat := 100
  burst : Nat := 200
  maxTrackedClients : Nat := 10000
  deriving DecidableEq, Repr

structure BlockWindow where
  days : List Str := []
  start : Option Str := none
  «end» : Option Str := none
  utcOffsetMinutes : Int := 0
  deriving DecidableEq, Repr

structure NodePolicy where
  nodeId : Option Str := none
  clientIp : Option Str := none
  blocklistBypass : Bool := false
  zonesAllowed : List Str := []
  logAllQueries : Bool := false
  blockWindows : List BlockWindow := []
  blocklistGroup : Option Str := none
  deriving DecidableEq, Repr

structure DnsConfig where
  server : ServerConfig := {}
  upstream : UpstreamConfig := {}
  authority : AuthorityConfig := {}
  blocklist : BlocklistConfig := {}
  privacy : PrivacyConfig := {}
  metrics : MetricsConfig := {}
  rateLimit : RateLimitConfig := {}
  policy : List NodePolicy := []
  rewrite : List RewriteRule := []
  safesearch : SafeSearchConfig := {}
  deriving DecidableEq, Repr

end RustyDns.L1
