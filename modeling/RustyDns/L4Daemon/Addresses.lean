import RustyDns.L1Core.Validate

/-!
# Addresses and paths in the config text

The steps of `rustydnsd/src/main.rs` between a loaded config and bound listeners whose outcome is in
the text alone: the listen addresses, the metrics address and path, the DoH bind gate. An error is
its message, with the context in front. Warnings are log output.

Results:
* `metricsListenAddr_eq`: the daemon binds metrics where validation looked for overlaps.
* `isDotSegment_iff`: the segments the byte decoder refuses, spelled out.
* `normalizeMetricsPath_ok_iff`, `literalPath_iff`: the metrics paths the daemon takes.
-/

namespace RustyDns.L4

open RustyDns.Lib RustyDns.L1
open RustyDns.Lib.Checks (reject okOr)

/-! ## Addresses -/

/-- mirrors crates/rustydnsd/src/main.rs:745-753 -/
def parseSocketAddrs (addrs : List Str) : Except String (List SocketAddr) :=
  addrs.mapM fun s => okOr (parseSocketAddr s) s!"`{s.display}` is not a valid socket address"

/-- An optional listener: absent, or an address that has to parse. -/
def parseOptional (field : String) : Option Str → Except String (Option SocketAddr)
  | some s => do
    let addr ← okOr (parseSocketAddr s) s!"{field} `{s.display}` is not a valid socket address"
    pure (some addr)
  | none => .ok none

/-- mirrors crates/rustydnsd/src/main.rs:1601-1638 -/
def metricsListenAddr (metrics : MetricsConfig) : Except String SocketAddr := do
  let addr ← okOr (parseSocketAddr metrics.listen)
    s!"metrics.listen `{metrics.listen.display}` is not a valid socket address"
  let ip := normIp addr.ip
  if ip.isLoopback then pure { ip, port := addr.port }
  else pure { ip := loopbackOf ip, port := addr.port }

/-- mirrors crates/rustydnsd/src/main.rs:1853-1881 -/
def ensureDohBindAllowed (addr : SocketAddr) (tlsConfigured : Bool) : Except String Unit :=
  if (normIp addr.ip).isLoopback then .ok ()
  else reject (!tlsConfigured)
    (s!"server.doh_listen `{addr.display}` is not a loopback address and no TLS cert/key " ++
      "is configured; refusing to serve plaintext DNS-over-HTTPS on a public " ++
      "interface. Bind DoH to 127.0.0.1 behind a TLS-terminating reverse proxy. " ++
      "server.tls_cert_path and server.tls_key_path only PERMIT a non-loopback " ++
      "bind — they do not make DoH itself TLS: the DoH port serves PLAINTEXT " ++
      "HTTP/2 and TLS must be terminated by an operator-provided reverse proxy.")

/-- mirrors crates/rustydnsd/src/listeners.rs:63-66 -/
def isPrivileged (addr : SocketAddr) : Bool := addr.port != 0 && addr.port < 1024

/-- mirrors crates/rustydnsd/src/listeners.rs:70-72 -/
def allUnprivileged (addrs : List SocketAddr) : Bool := addrs.all fun a => !isPrivileged a

theorem parseSocketAddrs_of_passed {cfg : DnsConfig} (h : ServerPassed cfg) :
    parseSocketAddrs cfg.server.listen = .ok cfg.listeners.listen :=
  Checks.mapM_okOr_of_map_some h.listen

theorem parseOptional_of_map_some {field : String} {o : Option Str} {o' : Option SocketAddr}
    (h : o.map parseSocketAddr = o'.map some) : parseOptional field o = .ok o' := by
  cases o with
  | none =>
    cases o' with
    | none => rfl
    | some b => simp at h
  | some s =>
    cases o' with
    | none => simp at h
    | some b =>
      rw [Option.map_some, Option.map_some, Option.some.injEq] at h
      simp only [parseOptional, h]
      rfl

theorem metricsListenAddr_eq (metrics : MetricsConfig) :
    (metricsListenAddr metrics).toOption = metrics.effectiveListen.toOption := by
  cases h : parseSocketAddr metrics.listen with
  | none => simp [metricsListenAddr, MetricsConfig.effectiveListen, h, okOr, bind, Except.bind,
      Except.toOption]
  | some a =>
    simp only [metricsListenAddr, MetricsConfig.effectiveListen, h, okOr, bind, Except.bind]
    split
    · rfl
    · rfl

theorem metricsListenAddr_of_passed {cfg : DnsConfig} (h : ServerPassed cfg) :
    ∃ a, metricsListenAddr cfg.metrics = .ok a ∧ cfg.listeners.metrics = some a := by
  obtain ⟨a, ha⟩ := Option.isSome_iff_exists.1 h.metrics
  have heff : cfg.listeners.metrics = _ :=
    congrArg Except.toOption (effectiveListen_of_parse ha)
  have hopt := metricsListenAddr_eq cfg.metrics
  rw [effectiveListen_of_parse ha] at hopt
  cases haddr : metricsListenAddr cfg.metrics with
  | error e =>
    rw [haddr] at hopt
    cases hopt
  | ok b =>
    rw [haddr] at hopt
    exact ⟨b, rfl, heff.trans hopt.symm⟩

theorem ensureDohBindAllowed_ok_iff {addr : SocketAddr} {tls : Bool} :
    ensureDohBindAllowed addr tls = .ok () ↔ tls = true ∨ (normIp addr.ip).isLoopback = true := by
  unfold ensureDohBindAllowed
  split
  · simp_all
  · simp_all

/-! ## The metrics path -/

def reservedMetricsPaths : List Str := ["/health".toList, "/queries".toList]

/-- The value of a byte that is an ASCII hex digit. -/
def hexValue (b : UInt8) : Option UInt8 :=
  (Str.toDigit 16 (Char.ofNat b.toNat)).map Nat.toUInt8

/-- The byte that `b` and the two bytes after it spell, when they are a percent escape. -/
def percentByte (b h l : UInt8) : Option UInt8 :=
  if b = 37 then do
    let hi ← hexValue h
    let lo ← hexValue l
    pure (hi * 16 + lo)
  else none

/-- The decoding loop; what is not an escape stays as it is. -/
def percentDecode : List UInt8 → List UInt8
  | b :: h :: l :: rest =>
    match percentByte b h l with
    | some d => d :: percentDecode rest
    | none => b :: percentDecode (h :: l :: rest)
  | b :: rest => b :: percentDecode rest
  | [] => []

/-- mirrors crates/rustydnsd/src/main.rs:1715-1738 -/
def isDotSegment (seg : Str) : Bool :=
  seg == ['.'] || seg == ['.', '.'] || percentDecode seg.asBytes == [46] ||
    percentDecode seg.asBytes == [46, 46]

/-- The path without outer blanks and with one leading slash added where there is none. -/
def withLeadingSlash (path : Str) : Str :=
  if path.trim = [] then "/metrics".toList
  else match path.trim.stripStart ['/'] with
    | some rest => '/' :: rest
    | none => '/' :: path.trim

/-- mirrors crates/rustydnsd/src/main.rs:1666-1709 -/
def normalizeMetricsPath (path : Str) : Except String Str := do
  let normalised := withLeadingSlash path
  reject (normalised ∈ reservedMetricsPaths)
    (s!"metrics.path `{path.display}` collides with the fixed `{normalised.display}` endpoint; " ++
      "pick another path (the metrics listener always serves /health and /queries)")
  reject ('\x7b' ∈ normalised ∨ '\x7d' ∈ normalised ∨ '*' ∈ normalised)
    (s!"metrics.path `{path.display}` contains router metacharacters " ++
      "(`\x7b`, `\x7d`, `*`) that axum/matchit would interpret as parameter or wildcard " ++
      "captures; use a plain literal path")
  reject ((normalised.splitBy (· == '/')).any isDotSegment)
    (s!"metrics.path `{path.display}` contains RFC 3986 dot-segments (`.` or `..`, including " ++
      "percent-encoded %2e spellings) that clients and proxies may normalise onto a different " ++
      "route than this daemon serves; use a plain literal path")
  pure normalised

/-- The paths the metrics server can be given: not one of its fixed endpoints, and literal. -/
structure LiteralPath (path : Str) : Prop where
  notReserved : path ∉ reservedMetricsPaths
  noCapture : ∀ c ∈ path, c ≠ '\x7b' ∧ c ≠ '\x7d' ∧ c ≠ '*'
  noDotSegment : ∀ seg ∈ path.splitBy (· == '/'), isDotSegment seg = false

theorem normalizeMetricsPath_ok_iff {path p : Str} :
    normalizeMetricsPath path = .ok p ↔ LiteralPath (withLeadingSlash path) ∧ p = withLeadingSlash path := by
  simp only [normalizeMetricsPath, Checks.seq_ok_iff, Checks.reject_ok_iff, Checks.pure_ok_iff,
    List.any_eq_true, not_or, not_exists, not_and, Bool.not_eq_true]
  constructor
  · intro h
    obtain ⟨hres, ⟨hopen, hclose, hstar⟩, hdots, hp⟩ := h
    refine ⟨⟨hres, fun c hc => ⟨?_, ?_, ?_⟩, hdots⟩, hp.symm⟩
    · intro heq
      exact hopen (heq ▸ hc)
    · intro heq
      exact hclose (heq ▸ hc)
    · intro heq
      exact hstar (heq ▸ hc)
  · intro h
    obtain ⟨h, hp⟩ := h
    refine ⟨h.notReserved, ⟨fun hc => ?_, fun hc => ?_, fun hc => ?_⟩, h.noDotSegment, hp.symm⟩
    · exact (h.noCapture _ hc).1 rfl
    · exact (h.noCapture _ hc).2.1 rfl
    · exact (h.noCapture _ hc).2.2 rfl

/-! ## Metrics paths spelled out -/

/-- The spellings of one dot. -/
def dotSpellings : List Str := [".".toList, "%2e".toList, "%2E".toList]

/-- One dot or two, each in any spelling. -/
def dotSegments : List Str := dotSpellings ++ dotSpellings.flatMap fun d => dotSpellings.map (d ++ ·)

theorem hexValue_spec {b v : UInt8} (h : hexValue b = some v) :
    v.toNat < 16 ∧ (v = 2 → b = 50) ∧ (v = 14 → b = 101 ∨ b = 69) := by
  have htable : ∀ n < 256, (hexValue (UInt8.ofNat n)).all (fun v => v.toNat < 16 ∧
      (v = 2 → UInt8.ofNat n = 50) ∧
      (v = 14 → UInt8.ofNat n = 101 ∨ UInt8.ofNat n = 69)) = true := by
    decide +kernel
  have hb := htable b.toNat b.toNat_lt
  rw [UInt8.ofNat_toNat, h, Option.all_some] at hb
  exact of_decide_eq_true hb

/-- The escapes that spell a dot. -/
theorem percentByte_dot {b h l : UInt8} (hd : percentByte b h l = some 46) :
    b = 37 ∧ h = 50 ∧ (l = 101 ∨ l = 69) := by
  unfold percentByte at hd
  split at hd
  · rename_i hb
    simp only [Option.bind_eq_bind, Option.bind_eq_some_iff, Option.pure_def,
      Option.some.injEq] at hd
    obtain ⟨hi, hhi, lo, hlo, hsum⟩ := hd
    obtain ⟨hhi, htwo, -⟩ := hexValue_spec hhi
    obtain ⟨hlo, -, hfourteen⟩ := hexValue_spec hlo
    have hnat : (hi.toNat * 16 + lo.toNat) % 256 = 46 := by
      have := congrArg UInt8.toNat hsum
      simpa [UInt8.toNat_add, UInt8.toNat_mul] using this
    have h2 : hi = 2 := UInt8.toNat_inj.1 (show hi.toNat = 2 by omega)
    have h14 : lo = 14 := UInt8.toNat_inj.1 (show lo.toNat = 14 by omega)
    exact ⟨hb, htwo h2, hfourteen h14⟩
  · cases hd

/-- A decoded text that starts with a dot starts with a spelling of one. -/
theorem percentDecode_dot {bytes rest : List UInt8} (h : percentDecode bytes = 46 :: rest) :
    ∃ d ∈ dotSpellings, ∃ bytes', bytes = d.asBytes ++ bytes' ∧ percentDecode bytes' = rest := by
  unfold percentDecode at h
  split at h
  · rename_i b hh l tail
    split at h
    · rename_i d hd
      obtain ⟨rfl, rfl⟩ := List.cons.inj h
      obtain ⟨rfl, rfl, hl⟩ := percentByte_dot hd
      rcases hl with rfl | rfl
      · exact ⟨"%2e".toList, by decide, tail, rfl, rfl⟩
      · exact ⟨"%2E".toList, by decide, tail, rfl, rfl⟩
    · obtain ⟨rfl, rfl⟩ := List.cons.inj h
      exact ⟨".".toList, by decide, _, rfl, rfl⟩
  · obtain ⟨rfl, rfl⟩ := List.cons.inj h
    exact ⟨".".toList, by decide, _, rfl, rfl⟩
  · cases h

theorem percentDecode_nil {bytes : List UInt8} (h : percentDecode bytes = []) : bytes = [] := by
  unfold percentDecode at h
  split at h
  · split at h
    · cases h
    · cases h
  · cases h
  · rfl

theorem isDotSegment_iff {seg : Str} : isDotSegment seg = true ↔ seg ∈ dotSegments := by
  constructor
  · intro h
    simp only [isDotSegment, Bool.or_eq_true, beq_iff_eq] at h
    rcases h with ((h | h) | h) | h
    · rw [h]
      decide
    · rw [h]
      decide
    · obtain ⟨d, hd, bytes, hbytes, hnil⟩ := percentDecode_dot h
      rw [percentDecode_nil hnil, List.append_nil] at hbytes
      rw [Str.asBytes_inj hbytes]
      exact List.mem_append_left _ hd
    · obtain ⟨d, hd, bytes, hbytes, hrest⟩ := percentDecode_dot h
      obtain ⟨d', hd', bytes', hbytes', hnil⟩ := percentDecode_dot hrest
      rw [hbytes', percentDecode_nil hnil, List.append_nil, ← Str.asBytes_append] at hbytes
      rw [Str.asBytes_inj hbytes]
      exact List.mem_append_right _ (List.mem_flatMap.2 ⟨d, hd, List.mem_map_of_mem hd'⟩)
  · revert seg
    decide +kernel

/-- The path in the config without outer blanks and without one leading slash. -/
def metricsPathText (path : Str) : Str := (path.trim.stripStart ['/']).getD path.trim

/-- The paths that fit: not the name of a fixed endpoint, no router metacharacter, no dot segment. -/
structure PathFits (path : Str) : Prop where
  notHealth : metricsPathText path ≠ "health".toList
  notQueries : metricsPathText path ≠ "queries".toList
  noCapture : ∀ c ∈ metricsPathText path, c ≠ '\x7b' ∧ c ≠ '\x7d' ∧ c ≠ '*'
  noDotSegment : ∀ seg ∈ (metricsPathText path).splitBy (· == '/'), seg ∉ dotSegments

theorem withLeadingSlash_eq {path : Str} (h : path.trim ≠ []) :
    withLeadingSlash path = '/' :: metricsPathText path := by
  unfold withLeadingSlash metricsPathText
  rw [if_neg h]
  cases path.trim.stripStart ['/'] with
  | none => rfl
  | some rest => rfl

theorem literalPath_iff {path : Str} : LiteralPath (withLeadingSlash path) ↔ PathFits path := by
  by_cases hempty : path.trim = []
  · have htext : metricsPathText path = [] := by
      unfold metricsPathText
      rw [hempty]
      rfl
    have hslash : withLeadingSlash path = "/metrics".toList := if_pos hempty
    rw [hslash]
    refine ⟨fun _ => ?_, fun _ => ⟨by decide, by decide, by decide +kernel⟩⟩
    constructor
    all_goals rw [htext]
    all_goals decide
  · have hdots : ∀ seg, isDotSegment seg = false ↔ seg ∉ dotSegments := fun seg => by
      rw [← isDotSegment_iff, Bool.not_eq_true]
    have hsplit : Str.splitBy (· == '/') ('/' :: metricsPathText path) =
        [] :: Str.splitBy (· == '/') (metricsPathText path) := by simp [Str.splitBy]
    rw [withLeadingSlash_eq hempty]
    constructor
    · intro h
      refine ⟨fun heq => ?_, fun heq => ?_, fun c hc => h.noCapture c (.tail _ hc),
        fun seg hseg => (hdots seg).1 (h.noDotSegment seg ?_)⟩
      · exact h.notReserved (by rw [heq]; decide)
      · exact h.notReserved (by rw [heq]; decide)
      · rw [hsplit]
        exact .tail _ hseg
    · intro h
      refine ⟨?_, ?_, ?_⟩
      · intro hres
        rcases List.mem_cons.1 hres with heq | hres
        · exact h.notHealth (List.cons.inj heq).2
        · exact h.notQueries (List.cons.inj (List.mem_singleton.1 hres)).2
      · exact List.forall_mem_cons.2 ⟨by decide, h.noCapture⟩
      · rw [hsplit]
        exact List.forall_mem_cons.2
          ⟨by decide, fun seg hseg => (hdots seg).2 (h.noDotSegment seg hseg)⟩

end RustyDns.L4
