import RustyDns.L4Daemon.Loader
import RustyDns.L4Daemon.Pipeline
import RustyDns.L4Daemon.RestartReport
import RustyDns.L4Daemon.Startup

/-!
# The daemon

What `main` of `rustydnsd/src/main.rs` builds, and the events that change it: requests, the two
periodic reloads and SIGHUP. A SIGHUP reloads the blocklist content and the mesh bundle from where
they were, then reads the config anew, swaps what can be swapped, reconciles the listeners and
reports settings that need a restart.

How a resolver is built, whether the writer of the query log starts, and what files and servers give
is the environment. The clock of the fetch spacing is in seconds.

Results:
* `reachable_held`: in every run the daemon holds the settings it was started with.
* `silent_sighup_is_restart`: when a SIGHUP that reports nothing leaves the daemon with the settings a
  restart would give it.
-/

namespace RustyDns.L4

open RustyDns.Lib RustyDns.L1 RustyDns.L2.Auth RustyDns.L2.Mesh RustyDns.L3
open RustyDns.L4.Pipeline RustyDns.L4.Rate RustyDns.L4.Rewrite

/-! ## State -/

/-- The settings of the writer.
mirrors crates/rustydnsd/src/query_log_disk.rs:171-183 -/
structure DiskLog where
  path : Str
  maxFileBytes : Nat
  maxFiles : Nat
  deriving DecidableEq, Repr

/-- The query log without its entries.
mirrors crates/rustydnsd/src/query_log.rs:190-204 -/
structure QueryLog where
  capacity : Nat
  disk : Option DiskLog
  deriving DecidableEq, Repr

structure Daemon (H : Hickory) where
  startupConfig : DnsConfig
  blocklists : Blocklists
  authority : Authority
  sinkholeIp : Option IpAddr
  queryLog : QueryLog
  /-- The periods of the two reload loops, none for a loop that does not run. -/
  blocklistPeriod : Option Nat
  meshPeriod : Option Nat
  resolver : Resolver H
  limiter : RateLimiter
  policyByIp : PolicyMap
  rewrites : RewriteMap
  listeners : ActiveListeners
  lastFetchRound : Option Rat

/-- The handler of the daemon's requests. -/
def Daemon.handler {H : Hickory} (d : Daemon H) : Pipeline.DnsHandler H where
  blocklist := d.blocklists.engine
  resolver := d.resolver
  sinkholeIp := d.sinkholeIp
  authority := d.authority
  policyByIp := d.policyByIp
  rewrites := d.rewrites

/-! ## Startup -/

/-- A validated config has a path if the log goes to disk.
mirrors crates/rustydnsd/src/main.rs:252-277 -/
def QueryLog.start (spawns : Bool) (privacy : PrivacyConfig) : QueryLog where
  capacity := privacy.queryLogRingSize
  disk :=
    if privacy.queryLogToDisk && spawns then
      privacy.queryLogDiskPath.map fun path =>
        ⟨path, privacy.queryLogMaxFileBytes, privacy.queryLogMaxFiles⟩
    else none

/-- The loop over the sources runs unless its period is 0.
mirrors crates/rustydnsd/src/main.rs:705-714 -/
def blocklistLoop (blocklist : BlocklistConfig) : Option Nat :=
  if blocklist.reloadIntervalSecs = 0 then none else some blocklist.reloadIntervalSecs

/-- The loop over the bundle runs unless its period is 0 or there is no bundle.
mirrors crates/rustydnsd/src/main.rs:1511-1524 -/
def meshLoop (authority : AuthorityConfig) : Option Nat :=
  if authority.pollIntervalSecs = 0 then none
  else if authority.meshZoneBundlePath.isNone then none
  else some authority.pollIntervalSecs

/-- What a start finds. -/
structure StartInputs (H : Hickory) where
  files : MeshFiles
  round : Round
  resolver : Except RustyDnsError (Resolver H)
  spawns : Bool
  outcomes : Outcomes
  now : Rat

section
variable {H : Hickory} (S : HickoryServer H) (E : Ed25519) (T : UnicodeTables) (build : RegexBuild)

/-- mirrors crates/rustydnsd/src/main.rs:118-467 -/
def Daemon.start (inp : StartInputs H) (cfg : DnsConfig) : Except StartupError (Daemon H) := do
  (validateConfig build cfg).mapError .core
  let authority ← (Authority.new E T cfg.authority inp.files).mapError .core
  let resolver ← inp.resolver.mapError .core
  let sinkhole ← (L4.sinkholeIp cfg.blocklist).mapError .core
  let listeners ← (ActiveListeners.start inp.outcomes cfg).mapError .daemon
  pure
    { startupConfig := cfg
      blocklists := ((Blocklists.start T build cfg.blocklist).reload T inp.round).1
      authority := authority
      sinkholeIp := sinkhole
      queryLog := .start inp.spawns cfg.privacy
      blocklistPeriod := blocklistLoop cfg.blocklist
      meshPeriod := meshLoop cfg.authority
      resolver := resolver
      limiter := .new cfg.rateLimit inp.now
      policyByIp := buildPolicyMap cfg.policy
      rewrites := .fromRules (combinedRewriteRules cfg)
      listeners := listeners
      lastFetchRound := none }

/-! ## Events -/

/-- What a SIGHUP finds. -/
structure HupInputs (H : Hickory) extends Sighup where
  now : Rat
  round : Round
  files : MeshFiles
  resolver : Except RustyDnsError (Resolver H)

/-- In seconds. -/
def minSighupFetchSpacing : Rat := 60

/-- mirrors crates/rustydnsd/src/main.rs:1654-1659 -/
def fetchSpacingOk (lastElapsed : Option Rat) (min : Rat) : Bool :=
  match lastElapsed with
  | none => true
  | some d => min ≤ d

namespace Daemon

/-- The fetch round of a SIGHUP, not more often than the spacing allows. -/
def fetchRound (d : Daemon H) (hup : HupInputs H) : Daemon H :=
  if fetchSpacingOk (d.lastFetchRound.map fun t => durationSince hup.now t)
      minSighupFetchSpacing then
    { d with
      blocklists := (d.blocklists.reload T hup.round).1
      lastFetchRound := some hup.now }
  else d

/-- mirrors crates/rustydnsd/src/main.rs:1407-1428 -/
def applyHotSwaps (d : Daemon H) (hup : HupInputs H) : Daemon H :=
  { d with
    resolver := hup.resolver.toOption.getD d.resolver
    limiter := .new hup.cfg.rateLimit hup.now
    policyByIp := buildPolicyMap hup.cfg.policy
    rewrites := .fromRules (combinedRewriteRules hup.cfg) }

/-- One SIGHUP, with the settings it reports.
mirrors crates/rustydnsd/src/main.rs:1240-1328 -/
def handleSighup (d : Daemon H) (hup : HupInputs H) : Daemon H × List String :=
  let d := d.fetchRound T hup
  let d := { d with authority := (d.authority.reloadMesh E T hup.files).2 }
  match validateConfig build hup.cfg with
  | .error _ => (d, [])
  | .ok () =>
    let d := d.applyHotSwaps hup
    let d := { d with listeners := reloadListeners hup.outcomes hup.cfg d.listeners }
    (d, restartRequiredChanges T d.startupConfig hup.cfg)

end Daemon

inductive Event (H : Hickory) where
  | request (clock : Clock) (request : Request H)
  | blocklistTick (round : Round)
  | meshTick (files : MeshFiles)
  | sighup (hup : HupInputs H)

def Daemon.step (d : Daemon H) : Event H → Daemon H
  | .request clock request =>
    let (_, world) := d.handler.handleRequest S T clock request ⟨d.limiter, []⟩
    { d with limiter := world.limiter }
  | .blocklistTick round => { d with blocklists := (d.blocklists.reload T round).1 }
  | .meshTick files => { d with authority := (d.authority.reloadMesh E T files).2 }
  | .sighup hup => (d.handleSighup E T build hup).1

/-- The runs of a daemon started on `cfg`. -/
def daemonRuns (inp : StartInputs H) (cfg : DnsConfig) : LTS (Daemon H) (Event H) :=
  .ofFn (fun d => Daemon.start E T build inp cfg = .ok d) fun d e => some (d.step S E T build e)

end

/-! ## What a run keeps -/

/-- What a daemon holds of the settings that no reload applies. -/
structure Held where
  loader : BlocklistConfig
  engine : BlocklistConfig
  sinkholeIp : Option IpAddr
  authority : AuthorityConfig
  queryLog : QueryLog
  blocklistPeriod : Option Nat
  meshPeriod : Option Nat
  deriving DecidableEq, Repr

def Daemon.held {H : Hickory} (d : Daemon H) : Held where
  loader := d.blocklists.config
  engine := d.blocklists.engine.config
  sinkholeIp := d.sinkholeIp
  authority := d.authority.config
  queryLog := d.queryLog
  blocklistPeriod := d.blocklistPeriod
  meshPeriod := d.meshPeriod

/-- What a daemon holds that has just been started on a config. -/
def Held.of (spawns : Bool) (cfg : DnsConfig) : Held where
  loader := cfg.blocklist
  engine := cfg.blocklist
  sinkholeIp := (L4.sinkholeIp cfg.blocklist).toOption.getD none
  authority := cfg.authority
  queryLog := .start spawns cfg.privacy
  blocklistPeriod := blocklistLoop cfg.blocklist
  meshPeriod := meshLoop cfg.authority

section
variable {H : Hickory} {S : HickoryServer H} {E : Ed25519} {T : UnicodeTables} {build : RegexBuild}
variable {inp : StartInputs H} {old : DnsConfig} {d : Daemon H}

theorem held_start (h : Daemon.start E T build inp old = .ok d) :
    d.held = Held.of inp.spawns old ∧ d.startupConfig = old := by
  simp only [Daemon.start, Checks.bind_ok_iff, Checks.mapError_ok_iff, Checks.pure_ok_iff] at h
  obtain ⟨-, -, authority, hauth, resolver, -, sinkhole, hsinkhole, listeners, -, rfl⟩ := h
  have hconfig : authority.config = old.authority := by
    simp only [Authority.new, Checks.bind_ok_iff, Checks.pure_ok_iff] at hauth
    obtain ⟨st, -, rfl⟩ := hauth
    rfl
  obtain ⟨hloader, hengine⟩ := Blocklists.reload_configs T (.start T build old.blocklist) inp.round
  refine ⟨?_, rfl⟩
  simp only [Daemon.held, Held.of, hloader, hengine, hsinkhole, hconfig]
  rfl

theorem held_handleSighup (d : Daemon H) (hup : HupInputs H) :
    (d.handleSighup E T build hup).1.held = d.held ∧
      (d.handleSighup E T build hup).1.startupConfig = d.startupConfig := by
  have hfetch : (d.fetchRound T hup).held = d.held ∧
      (d.fetchRound T hup).startupConfig = d.startupConfig := by
    obtain ⟨hloader, hengine⟩ := Blocklists.reload_configs T d.blocklists hup.round
    unfold Daemon.fetchRound
    split
    · simp [Daemon.held, hloader, hengine]
    · exact ⟨rfl, rfl⟩
  rw [← hfetch.1, ← hfetch.2]
  have hmesh := Authority.reloadMesh_config E T (d.fetchRound T hup).authority hup.files
  unfold Daemon.handleSighup
  dsimp only
  split
  · simp [Daemon.held, hmesh]
  · simp [Daemon.held, Daemon.applyHotSwaps, hmesh]

theorem held_step (d : Daemon H) (e : Event H) :
    (d.step S E T build e).held = d.held ∧
      (d.step S E T build e).startupConfig = d.startupConfig := by
  cases e with
  | request clock request => exact ⟨rfl, rfl⟩
  | blocklistTick round =>
    obtain ⟨hloader, hengine⟩ := Blocklists.reload_configs T d.blocklists round
    simp [Daemon.step, Daemon.held, hloader, hengine]
  | meshTick files =>
    simp [Daemon.step, Daemon.held, Authority.reloadMesh_config]
  | sighup hup => exact held_handleSighup d hup

/-- A daemon holds what it was started with, whatever configs it has been told to load since. -/
theorem reachable_held (h : (daemonRuns S E T build inp old).Reachable d) :
    d.held = Held.of inp.spawns old ∧ d.startupConfig = old := by
  refine LTS.Reachable.invariant (P := fun d => d.held = Held.of inp.spawns old ∧
    d.startupConfig = old) (fun d hstart => held_start hstart) ?_ h
  intro d e t hd hstep
  obtain rfl := Option.some.inj hstep
  have hkept : (d.step S E T build e).held = d.held ∧
      (d.step S E T build e).startupConfig = d.startupConfig := held_step d e
  rw [hkept.1, hkept.2]
  exact hd

theorem held_congr {new : DnsConfig} (h : ∀ s : Setting, ¬ s.Changed old new) (spawns : Bool) :
    Held.of spawns old = Held.of spawns new := by
  obtain ⟨hblocklist, hauthority, hlog⟩ := unchanged_iff.1 h
  simp only [queryLogSettings, QueryLogSettings.mk.injEq] at hlog
  obtain ⟨hdisk, hpath, hbytes, hfiles, hring⟩ := hlog
  simp only [Held.of, QueryLog.start, hblocklist, hauthority, hdisk, hpath, hbytes, hfiles, hring]

/-- A SIGHUP that reports nothing leaves the daemon with what a restart on the new config would give
it, if none of the settings that nothing compares has changed. -/
theorem silent_sighup_is_restart (hreach : (daemonRuns S E T build inp old).Reachable d)
    (hup : HupInputs H) (hvalid : validateConfig build hup.cfg = .ok ())
    (hsilent : (d.handleSighup E T build hup).2 = [])
    (hsame : ∀ s ∈ Setting.unreported, ¬ s.Changed old hup.cfg) :
    (d.handleSighup E T build hup).1.held = Held.of inp.spawns hup.cfg := by
  obtain ⟨hheld, hconfig⟩ := reachable_held hreach
  have hreport : restartRequiredChanges T old hup.cfg = [] := by
    have hstartup : (d.fetchRound T hup).startupConfig = old := by
      rw [← hconfig]
      unfold Daemon.fetchRound
      split <;> rfl
    rw [← hsilent, Daemon.handleSighup]
    simp only [hvalid, Daemon.applyHotSwaps, hstartup]
  rw [(held_handleSighup d hup).1, hheld]
  refine held_congr (fun s hchanged => ?_) _
  exact hsame s (report_eq_nil_iff.1 hreport s hchanged) hchanged

end

/-! ## A silent change -/

/-- A small config with one remote list. -/
def quietConfig : DnsConfig where
  server := { listen := ["127.0.0.1:5353".toList] }
  upstream := { resolvers := ["https://a".toList] }
  blocklist := { sources := ["https://a/list".toList] }

/-- The same with every setting changed that nothing compares. -/
def tunedConfig : DnsConfig :=
  { quietConfig with
    blocklist :=
      { quietConfig.blocklist with
        trustedRpzSources := ["https://a/list".toList]
        reloadIntervalSecs := 3600
        fetchTimeoutMs := 10000
        maxFetchBytes := 1024 * 1024 }
    authority :=
      { meshZoneBundlePath := some "/etc/mesh/bundle".toList
        meshZoneVerifierKeyPath := some "/etc/mesh/key".toList }
    privacy :=
      { queryLogMaxFileBytes := 1024 * 1024
        queryLogMaxFiles := 2
        queryLogRingSize := 10 } }

/-- Both configs are valid, nine settings of the components that stay as they are differ, and a
SIGHUP reports none of them. -/
theorem tuned_config_not_reported :
    validateConfig noRules quietConfig = .ok () ∧ validateConfig noRules tunedConfig = .ok () ∧
    restartRequiredChanges .asciiOnly quietConfig tunedConfig = [] ∧
    (∀ s ∈ Setting.unreported, s.Changed quietConfig tunedConfig) ∧
    quietConfig.blocklist ≠ tunedConfig.blocklist ∧ quietConfig.authority ≠ tunedConfig.authority ∧
    queryLogSettings quietConfig.privacy ≠ queryLogSettings tunedConfig.privacy := by
  refine ⟨by rfl, by rfl, by rfl, ?_, by decide, by decide, by decide⟩
  simp [Setting.unreported, Setting.Changed, quietConfig, tunedConfig]

end RustyDns.L4
