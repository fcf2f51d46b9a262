import RustyDns.L2Authority.Authority
import RustyDns.L3Resolver.Upstream
import RustyDns.L4Daemon.Listeners

/-!
# Startup

`--validate-config` and the startup of `rustydnsd/src/main.rs`, each as the chain of steps it runs.
The daemon reads the same texts a second time, in three crates: the resolver the upstream URLs, the
handler the sinkhole address, the listeners their addresses and the metrics path. File reads, binds
and lookups are taken to succeed (`Outcomes` at its default), and so are two steps that read config
text as well: the parse of the oblivious targets and the insert of the metrics path into the router.

Results:
* `start_ok_iff`: the listeners of a validated config come up exactly when the metrics path fits.
* `validated_config_starts_iff`: which validated configs start.
-/

namespace RustyDns.L4

open RustyDns.Lib RustyDns.L1 RustyDns.L2.Auth RustyDns.L2.Mesh RustyDns.L3
open RustyDns.Lib.Checks (okOr)

/-- An error of one of the crates, or of the daemon itself with its context. -/
inductive StartupError where
  | core (e : RustyDnsError)
  | daemon (msg : String)
  deriving DecidableEq, Repr

/-- mirrors crates/rustydnsd/src/handler.rs:206-215 -/
def sinkholeIp (blocklist : BlocklistConfig) : Except RustyDnsError (Option IpAddr) :=
  if blocklist.blockResponse = .sinkhole then do
    let ip ← okOr (parseIpAddr blocklist.sinkholeIp)
      (.config s!"blocklist.sinkhole_ip `{blocklist.sinkholeIp.display}` is not a valid IP address")
    pure (some ip)
  else .ok none

/-- `rustydnsd --validate-config` on a config that was read.
mirrors crates/rustydnsd/src/main.rs:171-188 -/
def validateOnly (build : RegexBuild) (E : Ed25519) (T : UnicodeTables) (files : MeshFiles)
    (cfg : DnsConfig) : Except RustyDnsError Unit := do
  validateConfig build cfg
  let _ ← Authority.new E T cfg.authority files

/-- The steps of a start that read the config text again, in their order, without the parse of the
oblivious targets and the router's own check of the metrics path.
mirrors crates/rustydnsd/src/main.rs:190-424 -/
def startup (E : Ed25519) (T : UnicodeTables) (files : MeshFiles) (cfg : DnsConfig) :
    Except StartupError ActiveListeners := do
  let _ ← (Authority.new E T cfg.authority files).mapError .core
  let _ ← (buildArms cfg.upstream).mapError .core
  let _ ← (sinkholeIp cfg.blocklist).mapError .core
  (ActiveListeners.start {} cfg).mapError .daemon

theorem sinkholeIp_of_validated {build : RegexBuild} {cfg : DnsConfig}
    (h : validateBlocklist build cfg = .ok ()) : ∃ ip, sinkholeIp cfg.blocklist = .ok ip := by
  simp only [validateBlocklist, Checks.seq_ok_iff, Checks.reject_ok_iff, not_and,
    Bool.not_eq_true] at h
  obtain ⟨-, -, hsinkhole, -⟩ := h
  unfold sinkholeIp
  split
  · rename_i hresponse
    obtain ⟨ip, hip⟩ :=
      Option.isSome_iff_exists.1 (Option.isNone_eq_false_iff.1 (hsinkhole hresponse))
    rw [hip]
    exact ⟨_, rfl⟩
  · exact ⟨_, rfl⟩

theorem startDoh_of_passed {cfg : DnsConfig} (hp : ServerPassed cfg) (s : ActiveListeners) :
    ∃ t, startDoh {} cfg s = .ok t := by
  simp only [startDoh, parseOptional_of_map_some hp.doh, Checks.bind_ok_iff, Except.ok.injEq,
    exists_eq_left']
  cases hdoh : cfg.listeners.doh with
  | none => exact ⟨_, rfl⟩
  | some addr =>
    have hbind := ensureDohBindAllowed_ok_iff.2 (hp.dohBind addr hdoh)
    simp only [installDoh, hbind]
    exact ⟨_, rfl⟩

theorem startMetrics_ok_iff {cfg : DnsConfig} (hp : ServerPassed cfg) (s : ActiveListeners) :
    (∃ t, startMetrics {} cfg s = .ok t) ↔ PathFits cfg.metrics.path := by
  obtain ⟨addr, haddr, -⟩ := metricsListenAddr_of_passed hp
  rw [← literalPath_iff]
  simp only [startMetrics, haddr, Checks.bind_ok_iff, normalizeMetricsPath_ok_iff, Except.ok.injEq,
    exists_eq_left']
  constructor
  · intro h
    obtain ⟨_, _, ⟨hpath, _⟩, _⟩ := h
    exact hpath
  · intro hpath
    exact ⟨_, _, ⟨hpath, rfl⟩, rfl⟩

theorem start_ok_iff {cfg : DnsConfig} (hp : ServerPassed cfg) :
    (∃ s, ActiveListeners.start {} cfg = .ok s) ↔ PathFits cfg.metrics.path := by
  have htls : ∀ addr, loadTlsFor addr (.ok ()) = .ok () := by
    intro addr
    unfold loadTlsFor
    split
    · rfl
    · rfl
  simp only [ActiveListeners.start, parseSocketAddrs_of_passed hp, parseOptional_of_map_some hp.dot,
    parseOptional_of_map_some hp.doq, htls, Checks.bind_ok_iff, Checks.mapError_ok_iff,
    Except.ok.injEq, exists_eq_left', true_and, exists_const]
  constructor
  · intro h
    obtain ⟨s, t, _, hmetrics⟩ := h
    exact (startMetrics_ok_iff hp t).1 ⟨s, hmetrics⟩
  · intro hpath
    obtain ⟨t, ht⟩ := startDoh_of_passed hp _
    obtain ⟨s, hs⟩ := (startMetrics_ok_iff hp t).2 hpath
    exact ⟨s, t, ht, hs⟩

/-- A config that `--validate-config` accepts gets through these steps exactly when its metrics path
fits and every hickory arm has a URL with a host and port behind the scheme. -/
theorem validated_config_starts_iff {build : RegexBuild} {E : Ed25519} {T : UnicodeTables}
    {files : MeshFiles} {cfg : DnsConfig} (h : validateOnly build E T files cfg = .ok ()) :
    (∃ s, startup E T files cfg = .ok s) ↔
      PathFits cfg.metrics.path ∧
      (cfg.upstream.protocol ≠ .odoh →
        ∃ url ∈ cfg.upstream.resolvers, UsableUrl cfg.upstream.protocol url) ∧
      ∀ route ∈ cfg.upstream.routes, ∃ url ∈ route.resolvers, UsableUrl route.protocol url := by
  simp only [validateOnly, Checks.bind_ok_iff, Checks.pure_ok_iff] at h
  obtain ⟨⟨⟩, hvalid, auth, hauth, -⟩ := h
  obtain ⟨-, hupstream, hblocklist, -⟩ := validateConfig_ok_iff.1 hvalid
  obtain ⟨ip, hip⟩ := sinkholeIp_of_validated hblocklist
  rw [← start_ok_iff (.of_validateConfig hvalid), ← buildArms_ok_iff (validateUpstream_ok hupstream)]
  simp only [startup, hauth, hip, Checks.bind_ok_iff, Checks.mapError_ok_iff, Except.ok.injEq,
    exists_eq_left']
  constructor
  · intro hstart
    obtain ⟨s, arms, harms, hs⟩ := hstart
    exact ⟨⟨s, hs⟩, arms, harms⟩
  · intro hparts
    obtain ⟨⟨s, hs⟩, arms, harms⟩ := hparts
    exact ⟨s, arms, harms, hs⟩

/-! ## Validated configs that do not start -/

/-- A small config with one resolver and a metrics path. -/
def pathAndResolver (path resolver : Str) : DnsConfig where
  server := { listen := ["127.0.0.1:5353".toList] }
  upstream := { resolvers := [resolver] }
  blocklist := { sources := [] }
  metrics := { path }

/-- **Counterexample**: the path of a fixed endpoint, and a port that is out of range. -/
theorem validated_configs_that_abort :
    (let cfg := pathAndResolver "/health".toList "https://a".toList
     validateOnly noRules noKeys .asciiOnly noFiles cfg = .ok () ∧
      ¬ ∃ s, startup noKeys .asciiOnly noFiles cfg = .ok s) ∧
    (let cfg := pathAndResolver "/m".toList "https://a:70000".toList
     validateOnly noRules noKeys .asciiOnly noFiles cfg = .ok () ∧
      ¬ ∃ s, startup noKeys .asciiOnly noFiles cfg = .ok s) := by
  refine ⟨⟨by rfl, ?_⟩, by rfl, ?_⟩
  · intro h
    obtain ⟨s, hs⟩ := h
    have herr : (startup noKeys .asciiOnly noFiles
        (pathAndResolver "/health".toList "https://a".toList)).isOk = false := by rfl
    rw [hs] at herr
    cases herr
  · intro h
    obtain ⟨s, hs⟩ := h
    have herr : (startup noKeys .asciiOnly noFiles
        (pathAndResolver "/m".toList "https://a:70000".toList)).isOk = false := by rfl
    rw [hs] at herr
    cases herr

theorem validated_config_starts_small :
    let cfg := pathAndResolver "/m".toList "https://a".toList
    validateOnly noRules noKeys .asciiOnly noFiles cfg = .ok () ∧
      ∃ s, startup noKeys .asciiOnly noFiles cfg = .ok s := by
  intro cfg
  have hvalid : validateOnly noRules noKeys .asciiOnly noFiles cfg = .ok () := by rfl
  refine ⟨hvalid, (validated_config_starts_iff hvalid).2 ⟨?_, fun _ => ?_, by simp [cfg, pathAndResolver]⟩⟩
  · constructor
    all_goals decide +kernel
  · refine ⟨_, List.mem_singleton_self _, _, List.mem_singleton_self _, "a".toList, [], ?_⟩
    refine ⟨by decide +kernel, by decide, .inl rfl, .bare (by decide) (.host (by decide) (by decide))⟩

end RustyDns.L4
