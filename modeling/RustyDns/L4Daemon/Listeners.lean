import RustyDns.L4Daemon.Addresses
import RustyDns.Lib.Lts

/-!
# Live listeners

`ActiveListeners` of `rustydnsd/src/main.rs`: what is bound, how startup binds it, and how a SIGHUP
reconciles the three listener groups (DNS with DoT and DoQ, DoH, metrics) to a new config. Each group
is applied or refused on its own. Sockets and TLS files are the environment: `Outcomes` says how each
load and bind ends. A config file that cannot be read or does not validate changes nothing.

Results:
* `live_reloadListeners`: after a reload each group is at the new addresses, or where it was if it
  was refused.
* `rolesApart_reload_iff`: when a reload keeps the roles apart.
* `destination_has_one_role`: a validated config gives a destination one role per transport.
* `reloads_keep_roles_apart`: the runs in which roles never share a port.
-/

namespace RustyDns.L4

open RustyDns.Lib RustyDns.L1

/-! ## State -/

/-- mirrors crates/rustydnsd/src/main.rs:764-792 -/
structure ActiveListeners where
  liveListen : List SocketAddr
  liveDot : Option SocketAddr := none
  liveDoq : Option SocketAddr := none
  liveTlsPaths : Option Str × Option Str := (none, none)
  liveDoh : Option SocketAddr := none
  liveDohTimeout : Option Nat := none
  liveMetrics : Option SocketAddr := none
  liveMetricsPath : Str := []
  deriving DecidableEq, Repr

def ActiveListeners.listeners (s : ActiveListeners) : Listeners where
  listen := s.liveListen
  dot := s.liveDot
  doq := s.liveDoq
  doh := s.liveDoh
  metrics := s.liveMetrics

/-- How each load and bind ends, with the text of its error. `dnsServer` is `build_dns_server` as a
whole. -/
structure Outcomes where
  tls : Except String Unit := .ok ()
  doqTls : Except String Unit := .ok ()
  dnsServer : Except String Unit := .ok ()
  dohBind : Except String Unit := .ok ()
  metricsBind : Except String Unit := .ok ()

def tlsPaths (server : ServerConfig) : Option Str × Option Str :=
  (server.tlsCertPath, server.tlsKeyPath)

/-! ## Installing a listener -/

/-- mirrors crates/rustydnsd/src/main.rs:853-878 -/
def installDoh (o : Outcomes) (addr : SocketAddr) (upstreamTimeout : Nat) (tlsConfigured : Bool)
    (s : ActiveListeners) : Except String ActiveListeners := do
  ensureDohBindAllowed addr tlsConfigured
  o.dohBind.mapError fun e => s!"failed to bind DoH listener on {addr.display}: {e}"
  pure { s with liveDoh := some addr, liveDohTimeout := some upstreamTimeout }

/-- mirrors crates/rustydnsd/src/main.rs:882-911 -/
def installMetrics (o : Outcomes) (addr : SocketAddr) (path : Str) (s : ActiveListeners) :
    Except String ActiveListeners := do
  o.metricsBind.mapError fun e => s!"failed to bind metrics listener on {addr.display}: {e}"
  pure { s with liveMetrics := some addr, liveMetricsPath := path }

/-! ## Startup -/

/-- mirrors crates/rustydnsd/src/main.rs:829-840 -/
def startDoh (o : Outcomes) (cfg : DnsConfig) (s : ActiveListeners) :
    Except String ActiveListeners := do
  match ← parseOptional "server.doh_listen" cfg.server.dohListen with
  | some addr => installDoh o addr cfg.upstream.timeoutMs (tlsConfigured cfg.server) s
  | none => pure s

/-- mirrors crates/rustydnsd/src/main.rs:843-847 -/
def startMetrics (o : Outcomes) (cfg : DnsConfig) (s : ActiveListeners) :
    Except String ActiveListeners := do
  let addr ← metricsListenAddr cfg.metrics
  let path ← normalizeMetricsPath cfg.metrics.path
  installMetrics o addr path s

/-- TLS files are read only for a listener that is configured. -/
def loadTlsFor (addr : Option SocketAddr) (outcome : Except String Unit) : Except String Unit :=
  if addr.isSome then outcome else .ok ()

/-- The listener part of `main`; any failure ends the process.
mirrors crates/rustydnsd/src/main.rs:313-424 -/
def ActiveListeners.start (o : Outcomes) (cfg : DnsConfig) : Except String ActiveListeners := do
  let listen ← (parseSocketAddrs cfg.server.listen).mapError fun e =>
    s!"invalid server.listen address: {e}"
  let dot ← parseOptional "server.dot_listen" cfg.server.dotListen
  let doq ← parseOptional "server.doq_listen" cfg.server.doqListen
  loadTlsFor dot o.tls
  loadTlsFor doq o.doqTls
  o.dnsServer.mapError fun e => s!"failed to bind DNS listeners: {e}"
  let bound : ActiveListeners :=
    { liveListen := listen
      liveDot := dot
      liveDoq := doq
      liveTlsPaths := tlsPaths cfg.server }
  startMetrics o cfg (← startDoh o cfg bound)

/-! ## One role per destination -/

/-- The addresses the daemon binds for a config, as its own parsers read them. -/
def daemonListeners (cfg : DnsConfig) : Except String Listeners := do
  let listen ← parseSocketAddrs cfg.server.listen
  let dot ← parseOptional "server.dot_listen" cfg.server.dotListen
  let doq ← parseOptional "server.doq_listen" cfg.server.doqListen
  let doh ← parseOptional "server.doh_listen" cfg.server.dohListen
  let metrics ← metricsListenAddr cfg.metrics
  pure { listen, dot, doq, doh, metrics := some metrics }

/-- Some listener of the role takes traffic for the destination. -/
def Serves (addrs : List (SocketAddr × Role)) (role : Role) (ip : IpAddr) (port : UInt16) : Prop :=
  ∃ a, (a, role) ∈ addrs ∧ a.port = port ∧ Reaches a.ip ip

theorem daemonListeners_of_passed {cfg : DnsConfig} (hp : ServerPassed cfg) :
    daemonListeners cfg = .ok cfg.listeners := by
  obtain ⟨addr, haddr, hmetrics⟩ := metricsListenAddr_of_passed hp
  have heq : { cfg.listeners with metrics := some addr } = cfg.listeners := by rw [← hmetrics]
  simp only [daemonListeners, parseSocketAddrs_of_passed hp, parseOptional_of_map_some hp.dot,
    parseOptional_of_map_some hp.doq, parseOptional_of_map_some hp.doh, haddr]
  exact congrArg Except.ok heq

theorem one_role_of_apart {addrs : List (SocketAddr × Role)} (h : RolesApart addrs) {ip : IpAddr}
    {port : UInt16} {r r' : Role} (hr : Serves addrs r ip port) (hr' : Serves addrs r' ip port) :
    r = r' := by
  obtain ⟨a, ha, haport, hareach⟩ := hr
  obtain ⟨b, hb, hbport, hbreach⟩ := hr'
  have hcompete : addrsCompete a.ip b.ip = true := addrsCompete_iff.2 ⟨ip, hareach, hbreach⟩
  have happ := h _ ha _ hb
  unfold overlaps at happ
  rw [haport, hbport, hcompete] at happ
  by_contra hne
  simp [hne] at happ

/-- A validated config gives every destination at most one TCP role and at most one UDP role, at the
addresses the daemon binds; and addresses compete exactly when some destination reaches both. -/
theorem destination_has_one_role {build : RegexBuild} {cfg : DnsConfig}
    (hvalid : validateConfig build cfg = .ok ()) :
    (∃ l, daemonListeners cfg = .ok l ∧ ∀ ip port r r',
      (Serves l.tcp r ip port → Serves l.tcp r' ip port → r = r') ∧
      (Serves l.udp r ip port → Serves l.udp r' ip port → r = r')) ∧
    ∀ a b, addrsCompete a b = true ↔ ∃ d, Reaches a d ∧ Reaches b d := by
  have hp : ServerPassed cfg := .of_validateConfig hvalid
  refine ⟨⟨_, daemonListeners_of_passed hp, fun ip port r r' => ⟨?_, ?_⟩⟩, fun a b => addrsCompete_iff⟩
  · exact one_role_of_apart hp.tcp
  · exact one_role_of_apart hp.udp

/-- A small config with a plain listener and a DoH listener. -/
def twoListeners (listen doh : Str) : DnsConfig where
  server := { listen := [listen], dohListen := some doh }
  upstream := { resolvers := ["https://a".toList] }
  blocklist := { sources := [] }

def noRules : RegexBuild := fun _ => .ok fun _ => false

theorem destination_has_one_role_two :
    validateConfig noRules (twoListeners "0.0.0.0:5353".toList "127.0.0.1:8053".toList) = .ok () ∧
      ∃ l, daemonListeners (twoListeners "0.0.0.0:5353".toList "127.0.0.1:8053".toList) = .ok l ∧
        ∀ ip port r r', (Serves l.tcp r ip port → Serves l.tcp r' ip port → r = r') ∧
          (Serves l.udp r ip port → Serves l.udp r' ip port → r = r') := by
  have hvalid : validateConfig noRules
      (twoListeners "0.0.0.0:5353".toList "127.0.0.1:8053".toList) = .ok () := by rfl
  exact ⟨hvalid, (destination_has_one_role hvalid).1⟩

/-! ## SIGHUP -/

/-- mirrors crates/rustydnsd/src/main.rs:922-1040 -/
def reloadDnsGroup (o : Outcomes) (cfg : DnsConfig) (s : ActiveListeners) : ActiveListeners :=
  match parseSocketAddrs cfg.server.listen, parseOptional "server.dot_listen" cfg.server.dotListen,
    parseOptional "server.doq_listen" cfg.server.doqListen with
  | .ok newListen, .ok newDot, .ok newDoq =>
    if newListen = s.liveListen ∧ newDot = s.liveDot ∧ newDoq = s.liveDoq ∧
        tlsPaths cfg.server = s.liveTlsPaths then s
    else if !allUnprivileged (newListen ++ newDot.toList ++ newDoq.toList) then s
    else if newDot.isSome && !o.tls.isOk then s
    else if newDoq.isSome && !o.doqTls.isOk then s
    else if o.dnsServer.isOk then
      { s with
        liveListen := newListen
        liveDot := newDot
        liveDoq := newDoq
        liveTlsPaths := tlsPaths cfg.server }
    else s
  | _, _, _ => s

/-- mirrors crates/rustydnsd/src/main.rs:1042-1083 -/
def reloadDohGroup (o : Outcomes) (cfg : DnsConfig) (s : ActiveListeners) : ActiveListeners :=
  match parseOptional "server.doh_listen" cfg.server.dohListen with
  | .ok newDoh =>
    if newDoh = s.liveDoh ∧ some cfg.upstream.timeoutMs = s.liveDohTimeout then s
    else match newDoh with
      | none => { s with liveDoh := none, liveDohTimeout := none }
      | some addr =>
        if isPrivileged addr then s
        else (installDoh o addr cfg.upstream.timeoutMs (tlsConfigured cfg.server) s).toOption.getD s
  | .error _ => s

/-- mirrors crates/rustydnsd/src/main.rs:1085-1115 -/
def reloadMetricsGroup (o : Outcomes) (cfg : DnsConfig) (s : ActiveListeners) : ActiveListeners :=
  match metricsListenAddr cfg.metrics, normalizeMetricsPath cfg.metrics.path with
  | .ok newAddr, .ok newPath =>
    if some newAddr = s.liveMetrics ∧ newPath = s.liveMetricsPath then s
    else if isPrivileged newAddr then s
    else (installMetrics o newAddr newPath s).toOption.getD s
  | _, _ => s

/-- mirrors crates/rustydnsd/src/main.rs:916-920 -/
def reloadListeners (o : Outcomes) (cfg : DnsConfig) (s : ActiveListeners) : ActiveListeners :=
  reloadMetricsGroup o cfg (reloadDohGroup o cfg (reloadDnsGroup o cfg s))

/-- One SIGHUP: the config in the file and how the loads and binds end. -/
structure Sighup where
  cfg : DnsConfig
  outcomes : Outcomes := {}

/-- The listener part of one SIGHUP: the config is loaded and validated first.
mirrors crates/rustydnsd/src/main.rs:1240-1328 -/
def handleSighup (build : RegexBuild) (s : ActiveListeners) (hup : Sighup) : ActiveListeners :=
  match validateConfig build hup.cfg with
  | .ok () => reloadListeners hup.outcomes hup.cfg s
  | .error _ => s

/-! ## Listener groups -/

/-- What a reload applies or refuses as one. -/
inductive Group where
  | dns
  | doh
  | metrics
  deriving DecidableEq, Repr

/-- The TCP listeners of a group. -/
def Group.tcp (l : Listeners) : Group → List (SocketAddr × Role)
  | .dns => l.listen.map (·, .plainDns) ++ l.dot.toList.map (·, .dot)
  | .doh => l.doh.toList.map (·, .doh)
  | .metrics => l.metrics.toList.map (·, .metrics)

/-- A reload to `cfg` leaves the group where it is: a privileged port, a metrics path that is not
literal, or a load or bind that fails. -/
def Group.refused (o : Outcomes) (cfg : DnsConfig) : Group → Bool
  | .dns =>
    !allUnprivileged (cfg.listeners.listen ++ cfg.listeners.dot.toList ++ cfg.listeners.doq.toList) ||
      (cfg.listeners.dot.isSome && !o.tls.isOk) || (cfg.listeners.doq.isSome && !o.doqTls.isOk) ||
      !o.dnsServer.isOk
  | .doh => cfg.listeners.doh.any fun addr => isPrivileged addr || !o.dohBind.isOk
  | .metrics =>
    !(normalizeMetricsPath cfg.metrics.path).isOk || cfg.listeners.metrics.any isPrivileged ||
      !o.metricsBind.isOk

theorem mem_tcp_iff {l : Listeners} {a : SocketAddr × Role} : a ∈ l.tcp ↔ ∃ g, a ∈ Group.tcp l g := by
  constructor
  · intro h
    simp only [Listeners.tcp, tcpAddrs, List.mem_append] at h
    rcases h with ((h | h) | h) | h
    · exact ⟨.dns, List.mem_append.2 (.inl h)⟩
    · exact ⟨.dns, List.mem_append.2 (.inr h)⟩
    · exact ⟨.doh, h⟩
    · exact ⟨.metrics, h⟩
  · intro h
    obtain ⟨g, h⟩ := h
    simp only [Listeners.tcp, tcpAddrs, List.mem_append]
    cases g with
    | dns => exact .inl (.inl (List.mem_append.1 h))
    | doh => exact .inl (.inr h)
    | metrics => exact .inr h

theorem reloadDnsGroup_listeners {o : Outcomes} {cfg : DnsConfig} (hp : ServerPassed cfg)
    (s : ActiveListeners) :
    (reloadDnsGroup o cfg s).listeners =
      if Group.dns.refused o cfg then s.listeners
      else { s.listeners with
        listen := cfg.listeners.listen
        dot := cfg.listeners.dot
        doq := cfg.listeners.doq } := by
  simp only [reloadDnsGroup, parseSocketAddrs_of_passed hp, parseOptional_of_map_some hp.dot,
    parseOptional_of_map_some hp.doq]
  split
  · rename_i h
    obtain ⟨hlisten, hdot, hdoq, -⟩ := h
    -- nothing changed, so it does not matter whether the group would be refused
    have hsame : { s.listeners with
        listen := cfg.listeners.listen
        dot := cfg.listeners.dot
        doq := cfg.listeners.doq } = s.listeners := by
      rw [hlisten, hdot, hdoq]
      rfl
    rw [hsame, ite_self]
  · unfold Group.refused
    generalize allUnprivileged _ = unprivileged
    generalize (cfg.listeners.dot.isSome && !o.tls.isOk) = tlsFailed
    generalize (cfg.listeners.doq.isSome && !o.doqTls.isOk) = doqTlsFailed
    generalize o.dnsServer.isOk = bound
    cases unprivileged <;> cases tlsFailed <;> cases doqTlsFailed <;> cases bound <;> rfl

/-- Installing DoH at an address that validation let through. -/
theorem installDoh_listeners {o : Outcomes} {addr : SocketAddr} {timeout : Nat} {tls : Bool}
    (h : ensureDohBindAllowed addr tls = .ok ()) (s : ActiveListeners) :
    ((installDoh o addr timeout tls s).toOption.getD s).listeners =
      if o.dohBind.isOk then { s.listeners with doh := some addr } else s.listeners := by
  unfold installDoh
  rw [h]
  cases o.dohBind with
  | error e => rfl
  | ok u => rfl

theorem installMetrics_listeners {o : Outcomes} {addr : SocketAddr} {path : Str}
    (s : ActiveListeners) :
    ((installMetrics o addr path s).toOption.getD s).listeners =
      if o.metricsBind.isOk then { s.listeners with metrics := some addr } else s.listeners := by
  unfold installMetrics
  cases o.metricsBind with
  | error e => rfl
  | ok u => rfl

theorem reloadDohGroup_listeners {o : Outcomes} {cfg : DnsConfig} (hp : ServerPassed cfg)
    (s : ActiveListeners) :
    (reloadDohGroup o cfg s).listeners =
      if Group.doh.refused o cfg then s.listeners
      else { s.listeners with doh := cfg.listeners.doh } := by
  simp only [reloadDohGroup, parseOptional_of_map_some hp.doh]
  split
  · rename_i h
    have hsame : { s.listeners with doh := cfg.listeners.doh } = s.listeners := by
      rw [h.1]
      rfl
    rw [hsame, ite_self]
  · unfold Group.refused
    cases hdoh : cfg.listeners.doh with
    | none => rfl
    | some addr =>
      have hbind := ensureDohBindAllowed_ok_iff.2 (hp.dohBind addr hdoh)
      cases hpriv : isPrivileged addr with
      | true => simp [hpriv]
      | false =>
        simp only [Bool.false_eq_true, if_false, installDoh_listeners hbind, Option.any_some, hpriv,
          Bool.false_or]
        cases o.dohBind.isOk with
        | true => rfl
        | false => rfl

theorem reloadMetricsGroup_listeners {o : Outcomes} {cfg : DnsConfig} (hp : ServerPassed cfg)
    (s : ActiveListeners) :
    (reloadMetricsGroup o cfg s).listeners =
      if Group.metrics.refused o cfg then s.listeners
      else { s.listeners with metrics := cfg.listeners.metrics } := by
  obtain ⟨addr, haddr, hmetrics⟩ := metricsListenAddr_of_passed hp
  unfold reloadMetricsGroup Group.refused
  rw [haddr, hmetrics]
  cases hpath : normalizeMetricsPath cfg.metrics.path with
  | error e => rfl
  | ok path =>
    simp only
    split
    · rename_i h
      have hsame : { s.listeners with metrics := some addr } = s.listeners := by
        rw [h.1]
        rfl
      rw [hsame, ite_self]
    · cases hpriv : isPrivileged addr with
      | true => simp [hpriv, Except.isOk, Except.toBool]
      | false =>
        simp only [Bool.false_eq_true, if_false, installMetrics_listeners, Option.any_some, hpriv,
          Except.isOk, Except.toBool, Bool.not_true, Bool.false_or]
        cases o.metricsBind with
        | error e => rfl
        | ok u => rfl

/-- After a reload a group is at the addresses of the new config, or where it was if refused. -/
theorem live_reloadListeners {o : Outcomes} {cfg : DnsConfig} (hp : ServerPassed cfg)
    (s : ActiveListeners) (g : Group) :
    g.tcp (reloadListeners o cfg s).listeners =
      if g.refused o cfg then g.tcp s.listeners else g.tcp cfg.listeners := by
  unfold reloadListeners
  rw [reloadMetricsGroup_listeners hp, reloadDohGroup_listeners hp, reloadDnsGroup_listeners hp]
  generalize hdns : Group.dns.refused o cfg = dns
  generalize hdoh : Group.doh.refused o cfg = doh
  generalize hmetrics : Group.metrics.refused o cfg = metrics
  cases g with
  | dns =>
    rw [hdns]
    cases dns <;> cases doh <;> cases metrics <;> rfl
  | doh =>
    rw [hdoh]
    cases dns <;> cases doh <;> cases metrics <;> rfl
  | metrics =>
    rw [hmetrics]
    cases dns <;> cases doh <;> cases metrics <;> rfl

/-! ## Roles apart -/

/-- No group that stays where it is meets a group that moves onto it. -/
def Clear (s : ActiveListeners) (o : Outcomes) (cfg : DnsConfig) : Prop :=
  ∀ g g' : Group, g.refused o cfg = true → g'.refused o cfg = false →
    ∀ a ∈ g.tcp s.listeners, ∀ b ∈ g'.tcp cfg.listeners, overlaps a b = false

instance (addrs : List (SocketAddr × Role)) : Decidable (RolesApart addrs) :=
  inferInstanceAs (Decidable (∀ a ∈ addrs, ∀ b ∈ addrs, overlaps a b = false))

theorem rolesApart_iff_groups {l : Listeners} :
    RolesApart l.tcp ↔ ∀ g g', ∀ a ∈ Group.tcp l g, ∀ b ∈ Group.tcp l g', overlaps a b = false := by
  constructor
  · intro h g g' a ha b hb
    exact h a (mem_tcp_iff.2 ⟨g, ha⟩) b (mem_tcp_iff.2 ⟨g', hb⟩)
  · intro h a ha b hb
    obtain ⟨g, hg⟩ := mem_tcp_iff.1 ha
    obtain ⟨g', hg'⟩ := mem_tcp_iff.1 hb
    exact h g g' a hg b hg'

theorem rolesApart_reload_iff {o : Outcomes} {cfg : DnsConfig} {s : ActiveListeners}
    (hp : ServerPassed cfg) (hs : RolesApart s.listeners.tcp) :
    RolesApart (reloadListeners o cfg s).listeners.tcp ↔ Clear s o cfg := by
  have hlive := live_reloadListeners (o := o) hp s
  rw [rolesApart_iff_groups] at hs ⊢
  have hnew := rolesApart_iff_groups.1 hp.tcp
  constructor
  · intro h g g' hg hg' a ha b hb
    refine h g g' a ?_ b ?_
    · rw [hlive, hg]
      exact ha
    · rw [hlive, hg']
      exact hb
  · intro h g g' a ha b hb
    rw [hlive] at ha hb
    -- both from the old config, both from the new one, or one of each
    cases hg : g.refused o cfg with
    | true =>
      rw [hg] at ha
      cases hg' : g'.refused o cfg with
      | true =>
        rw [hg'] at hb
        exact hs g g' a ha b hb
      | false =>
        rw [hg'] at hb
        exact h g g' hg hg' a ha b hb
    | false =>
      rw [hg] at ha
      cases hg' : g'.refused o cfg with
      | true =>
        rw [hg'] at hb
        rw [overlaps_comm]
        exact h g' g hg' hg b hb a ha
      | false =>
        rw [hg'] at hb
        exact hnew g g' a ha b hb

theorem rolesApart_sighup_iff {build : RegexBuild} {s : ActiveListeners} {hup : Sighup}
    (hs : RolesApart s.listeners.tcp) :
    RolesApart (handleSighup build s hup).listeners.tcp ↔
      (validateConfig build hup.cfg = .ok () → Clear s hup.outcomes hup.cfg) := by
  unfold handleSighup
  cases hvalid : validateConfig build hup.cfg with
  | error e => simp [hs]
  | ok u =>
    simp only [forall_const]
    exact rolesApart_reload_iff (.of_validateConfig hvalid) hs

theorem startDoh_listeners {o : Outcomes} {cfg : DnsConfig} {s t : ActiveListeners}
    (hp : ServerPassed cfg) (hs : s.liveDoh = none) (h : startDoh o cfg s = .ok t) :
    t.listeners = { s.listeners with doh := cfg.listeners.doh } := by
  simp only [startDoh, parseOptional_of_map_some hp.doh, Checks.bind_ok_iff, Except.ok.injEq,
    exists_eq_left'] at h
  cases hdoh : cfg.listeners.doh with
  | none =>
    rw [hdoh, Checks.pure_ok_iff] at h
    rw [← h, ← hs]
    rfl
  | some addr =>
    rw [hdoh] at h
    simp only [installDoh, Checks.seq_ok_iff, Checks.pure_ok_iff] at h
    rw [← h.2.2]
    rfl

theorem startMetrics_listeners {o : Outcomes} {cfg : DnsConfig} {s t : ActiveListeners}
    (hp : ServerPassed cfg) (h : startMetrics o cfg s = .ok t) :
    t.listeners = { s.listeners with metrics := cfg.listeners.metrics } := by
  obtain ⟨addr, haddr, hmetrics⟩ := metricsListenAddr_of_passed hp
  simp only [startMetrics, haddr, installMetrics, Checks.bind_ok_iff, Checks.pure_ok_iff,
    Except.ok.injEq, exists_eq_left'] at h
  obtain ⟨path, -, -, -, rfl⟩ := h
  rw [hmetrics]
  rfl

/-- A daemon that came up is bound where its config says. -/
theorem start_listeners {o : Outcomes} {cfg : DnsConfig} {s : ActiveListeners}
    (hp : ServerPassed cfg) (h : ActiveListeners.start o cfg = .ok s) :
    s.listeners = cfg.listeners := by
  simp only [ActiveListeners.start, parseSocketAddrs_of_passed hp, parseOptional_of_map_some hp.dot,
    parseOptional_of_map_some hp.doq, Checks.bind_ok_iff, Checks.mapError_ok_iff, Except.ok.injEq,
    exists_eq_left'] at h
  obtain ⟨-, -, -, -, -, -, t, hdoh, hmetrics⟩ := h
  rw [startMetrics_listeners hp hmetrics, startDoh_listeners hp rfl hdoh]
  rfl

/-- In a run of SIGHUPs from a validated startup config the TCP roles stay apart in every state
exactly when no reload moves a group onto the address of a group it refuses to move. -/
theorem reloads_keep_roles_apart {build : RegexBuild} {cfg : DnsConfig} {o : Outcomes}
    {s : ActiveListeners} (hups : List Sighup) (hvalid : validateConfig build cfg = .ok ())
    (hstart : ActiveListeners.start o cfg = .ok s) :
    (∀ t ∈ trace (handleSighup build) s hups, RolesApart t.listeners.tcp) ↔
      AllSteps (handleSighup build)
        (fun t hup => validateConfig build hup.cfg = .ok () → Clear t hup.outcomes hup.cfg)
        s hups := by
  have hp : ServerPassed cfg := .of_validateConfig hvalid
  have hinit : RolesApart s.listeners.tcp := by
    rw [start_listeners hp hstart]
    exact hp.tcp
  exact forall_trace_iff (P := fun t : ActiveListeners => RolesApart t.listeners.tcp)
    (fun t hup ht => rolesApart_sighup_iff ht) hinit

/-! ## A reload that mixes two configs -/

/-- **Counterexample**: both configs validate and every load and bind succeeds. The new DoH address
is on a privileged port, so DoH stays on 8053, while plain DNS moves to 8053. -/
theorem reload_moves_plain_dns_onto_doh :
    let before := twoListeners "127.0.0.1:5353".toList "127.0.0.1:8053".toList
    let after := twoListeners "127.0.0.1:8053".toList "127.0.0.1:53".toList
    validateConfig noRules before = .ok () ∧ validateConfig noRules after = .ok () ∧
      ∃ s, ActiveListeners.start {} before = .ok s ∧
        ¬ RolesApart (handleSighup noRules s { cfg := after }).listeners.tcp := by
  refine ⟨by rfl, by rfl, _, rfl, ?_⟩
  decide +kernel

/-- The daemon started with plain DNS on 5353, DoH on 8053 and the default metrics listener. -/
def startedTwo : ActiveListeners where
  liveListen := [{ ip := .v4 (.ofOctets 127 0 0 1), port := 5353 }]
  liveDoh := some { ip := .v4 (.ofOctets 127 0 0 1), port := 8053 }
  liveDohTimeout := some 5000
  liveMetrics := some { ip := .v4 (.ofOctets 127 0 0 1), port := 9153 }
  liveMetricsPath := "/metrics".toList

/-- The same DoH refusal with plain DNS moving to a free port. -/
theorem reloads_keep_roles_apart_free_port :
    let before := twoListeners "127.0.0.1:5353".toList "127.0.0.1:8053".toList
    let after := twoListeners "127.0.0.1:5354".toList "127.0.0.1:53".toList
    validateConfig noRules before = .ok () ∧ ActiveListeners.start {} before = .ok startedTwo ∧
      ∀ t ∈ trace (handleSighup noRules) startedTwo [{ cfg := after }],
        RolesApart t.listeners.tcp := by
  intro before after
  have hvalid : validateConfig noRules before = .ok () := by rfl
  have hstart : ActiveListeners.start {} before = .ok startedTwo := by rfl
  refine ⟨hvalid, hstart, (reloads_keep_roles_apart _ hvalid hstart).2 ⟨?_, trivial⟩⟩
  intro _ g g'
  cases g <;> cases g' <;> decide +kernel

end RustyDns.L4
