import RustyDns.L1Core.Validate

/-!
# Upstream URLs

`parse_upstream_url` of `rustydns-resolver/src/lib.rs` and the part of `Resolver::new` that the config
text decides: each arm needs one URL that parses. Bootstrap lookups and the resolver library's own
builder are taken to succeed.

The parser and `validate_config` look at different parts of a URL: validation at the scheme, the
parser at the host and port behind it. `HostPort` is the grammar the parser accepts there.

Results:
* `parseHostPort_ok_iff`: the parser accepts exactly `HostPort`.
* `parseUpstreamUrl_ok_iff`: for a URL that validation let through, the parser accepts it exactly
  when a `HostPort` stands behind its scheme.
-/

namespace RustyDns.L3

open RustyDns.Lib RustyDns.L1
open RustyDns.Lib.Checks (reject okOr forEach)

/-! ## The parser -/

/-- mirrors crates/rustydns-resolver/src/lib.rs:686-690 -/
structure ParsedUpstream where
  scheme : Str
  host : Str
  port : Nat
  deriving DecidableEq, Repr

/-- mirrors crates/rustydns-resolver/src/lib.rs:767-782 -/
def defaultPort (scheme : Str) (protocol : UpstreamProtocol) : Nat :=
  if scheme = "https".toList then 443
  else if scheme = "quic".toList then 853
  else if scheme = "plain".toList then 53
  else match protocol with
    | .doh => 443
    | .doq => 853
    | .plain => 53
    | .odoh => 443

def invalidPort (url : Str) : RustyDnsError := .config s!"upstream `{url.display}` has invalid port"

def missingHost (url : Str) : RustyDnsError :=
  .config s!"upstream `{url.display}` is missing a host"

/-- What stands behind an opening bracket: a literal, `]`, and a port or nothing. -/
def parseLiteral (url : Str) (default : Nat) (inner : Str) : Except RustyDnsError (Str × Nat) := do
  let (host, after) ← okOr (inner.splitOnce ']')
    (.config (s!"upstream `{url.display}` has an unterminated `[` IPv6 literal " ++
      "(missing `]`)"))
  reject ((parseIpAddr host).isNone)
    (.config (s!"upstream `{url.display}` has an invalid or empty IP literal " ++
      s!"`[{host.display}]`"))
  match after.stripStart [':'] with
  | some p => do
    let port ← okOr (p.parseUnsigned 65536) (invalidPort url)
    pure (host, port)
  | none => do
    reject (after ≠ [])
      (.config (s!"upstream `{url.display}` has unexpected characters after `]` " ++
        "(expected `:port`)"))
    pure (host, default)

/-- A host without brackets: an all-digit piece behind the last colon is the port. -/
def parseBare (url : Str) (default : Nat) (hostPort : Str) : Except RustyDnsError (Str × Nat) :=
  match hostPort.rsplitOnce ':' with
  | some (front, tail) =>
    if tail.all Char.isDigit then do
      let port ← okOr (tail.parseUnsigned 65536) (invalidPort url)
      pure (front, port)
    else .ok (hostPort, default)
  | none => .ok (hostPort, default)

def parseEither (url : Str) (default : Nat) (hostPort : Str) : Except RustyDnsError (Str × Nat) :=
  match hostPort.stripStart ['['] with
  | some inner => parseLiteral url default inner
  | none => parseBare url default hostPort

def parseHostPort (url : Str) (default : Nat) (hostPort : Str) :
    Except RustyDnsError (Str × Nat) := do
  reject (hostPort = []) (missingHost url)
  let hp ← parseEither url default hostPort
  reject (hp.1 = []) (missingHost url)
  pure hp

/-- The scheme and what follows it. -/
def splitScheme (url : Str) (protocol : UpstreamProtocol) : Except RustyDnsError (Str × Str) :=
  match url.splitOnceStr "://".toList with
  | some (scheme, rest) => .ok (scheme.toAsciiLowercase, rest)
  | none =>
    if protocol = .plain then .ok ("plain".toList, url)
    else .error (.config (s!"upstream `{url.display}` is not a URL (expected " ++
      "`scheme://host[:port][/path]`)"))

/-- mirrors crates/rustydns-resolver/src/lib.rs:692-765 -/
def parseUpstreamUrl (url : Str) (protocol : UpstreamProtocol) :
    Except RustyDnsError ParsedUpstream := do
  let (scheme, rest) ← splitScheme url.trim protocol
  let hostPort : Str := ((rest.splitBy (· == '/')).head?).getD []
  let (host, port) ← parseHostPort url.trim (defaultPort scheme protocol) hostPort
  pure { scheme, host, port }

/-! ## Arms -/

/-- One URL of an arm, its lookup taken to succeed.
mirrors crates/rustydns-resolver/src/lib.rs:886-947 -/
def buildNameServers (url : Str) (protocol : UpstreamProtocol) :
    Except RustyDnsError ParsedUpstream := do
  let parsed ← parseUpstreamUrl url protocol
  reject (protocol = .odoh)
    (.resolver ("protocol = \"odoh\" is only supported on the global upstream, not on a " ++
      "conditional-forwarding route. This should have been rejected by validate_config."))
  pure parsed

/-- The upstreams of an arm; URLs that fail are skipped, one has to be left.
mirrors crates/rustydns-resolver/src/lib.rs:615-662 -/
def buildResolverArm (label : Str) (resolvers : List Str) (protocol : UpstreamProtocol) :
    Except RustyDnsError (List ParsedUpstream) := do
  let configured := resolvers.filterMap fun url => (buildNameServers url protocol).toOption
  reject (configured = [])
    (.resolver (s!"no upstream resolver could be bootstrapped for arm `{label.display}` — check " ++
      "network connectivity and the configured URLs"))
  pure configured

/-- The default arm. The oblivious one parses its targets on its own, and may refuse them there; that
is left out. -/
def buildDefaultArm (upstream : UpstreamConfig) : Except RustyDnsError (List ParsedUpstream) :=
  if upstream.protocol = .odoh then .ok []
  else buildResolverArm "default".toList upstream.resolvers upstream.protocol

/-- The arms of `Resolver::new`.
mirrors crates/rustydns-resolver/src/lib.rs:219-313 -/
def buildArms (upstream : UpstreamConfig) :
    Except RustyDnsError (List ParsedUpstream × List (List ParsedUpstream)) := do
  reject (upstream.resolvers = [])
    (.config "upstream.resolvers is empty — at least one resolver URL is required")
  let default ← buildDefaultArm upstream
  let routes ← upstream.routes.mapM fun r =>
    buildResolverArm r.zone.trim.toAsciiLowercase r.resolvers r.protocol
  pure (default, routes)

/-! ## What the parser accepts -/

/-- A host without brackets, with or without a port. -/
inductive BareHost : Str → Prop where
  | host {h : Str} : h ≠ [] → ':' ∉ h → BareHost h
  /-- What follows the last colon is no port, so all of it is the host. -/
  | colonHost {front tail : Str} : ':' ∉ tail → tail.all Char.isDigit = false →
      BareHost (front ++ ':' :: tail)
  | hostPort {h port : Str} : h ≠ [] → port.all Char.isDigit = true →
      (port.parseUnsigned 65536).isSome = true → BareHost (h ++ ':' :: port)

/-- What may follow a literal. -/
inductive LiteralEnd : Str → Prop where
  | none : LiteralEnd []
  | port {p : Str} : (p.parseUnsigned 65536).isSome = true → LiteralEnd (':' :: p)

/-- The texts that name a host and a port. -/
inductive HostPort : Str → Prop where
  | bare {t : Str} : t.head? ≠ some '[' → BareHost t → HostPort t
  | literal {ip after : Str} : ']' ∉ ip → (parseIpAddr ip).isSome = true → LiteralEnd after →
      HostPort ('[' :: (ip ++ ']' :: after))

theorem colon_not_mem_digits {t : Str} (h : t.all Char.isDigit = true) : ':' ∉ t := by
  intro hc
  exact absurd (List.all_eq_true.1 h ':' hc) (by decide)

theorem parseBare_ok_iff {url t : Str} {default : Nat} (hne : t ≠ []) :
    (∃ hp, parseBare url default t = .ok hp ∧ hp.1 ≠ []) ↔ BareHost t := by
  unfold parseBare
  constructor
  · intro h
    obtain ⟨hp, h, hhost⟩ := h
    cases hsplit : t.rsplitOnce ':' with
    | none => exact .host hne (Str.rsplitOnce_eq_none_iff.1 hsplit)
    | some p =>
      obtain ⟨front, tail⟩ := p
      obtain ⟨ht, hcolon⟩ := Str.rsplitOnce_eq_some_iff.1 hsplit
      rw [hsplit] at h
      simp only at h
      rw [ht]
      split at h
      · rename_i hdigits
        simp only [Checks.bind_ok_iff, Checks.okOr_ok_iff, Checks.pure_ok_iff] at h
        obtain ⟨port, hport, rfl⟩ := h
        exact .hostPort hhost hdigits (by rw [hport]; rfl)
      · rename_i hdigits
        exact .colonHost hcolon (Bool.not_eq_true _ ▸ hdigits)
  · intro h
    cases h with
    | host hne hcolon =>
      rw [Str.rsplitOnce_eq_none_iff.2 hcolon]
      exact ⟨_, rfl, hne⟩
    | colonHost hcolon hdigits =>
      rw [Str.rsplitOnce_eq_some_iff.2 ⟨rfl, hcolon⟩]
      simp only [hdigits]
      exact ⟨_, rfl, by simp⟩
    | hostPort hhost hdigits hport =>
      obtain ⟨n, hn⟩ := Option.isSome_iff_exists.1 hport
      rw [Str.rsplitOnce_eq_some_iff.2 ⟨rfl, colon_not_mem_digits hdigits⟩]
      simp only [hdigits, hn]
      exact ⟨_, rfl, hhost⟩

theorem parseLiteral_ok_iff {url inner : Str} {default : Nat} :
    (∃ hp, parseLiteral url default inner = .ok hp ∧ hp.1 ≠ []) ↔
      ∃ ip after, inner = ip ++ ']' :: after ∧ ']' ∉ ip ∧ (parseIpAddr ip).isSome = true ∧
        LiteralEnd after := by
  constructor
  · intro h
    obtain ⟨hp, h, _⟩ := h
    simp only [parseLiteral, Checks.bind_ok_iff, Checks.okOr_ok_iff, Checks.reject_ok_iff,
      Prod.exists, Bool.not_eq_true] at h
    obtain ⟨ip, after, hsplit, -, hip, h⟩ := h
    obtain ⟨hinner, hbracket⟩ := Str.splitOnce_eq_some_iff.1 hsplit
    refine ⟨ip, after, hinner, hbracket, Option.isNone_eq_false_iff.1 hip, ?_⟩
    cases hport : after.stripStart [':'] with
    | none =>
      rw [hport] at h
      simp only [Checks.seq_ok_iff, Checks.reject_ok_iff, not_not] at h
      rw [h.1]
      exact .none
    | some p =>
      rw [hport] at h
      simp only [Checks.bind_ok_iff, Checks.okOr_ok_iff] at h
      obtain ⟨port, hp, -⟩ := h
      rw [Str.stripStart_eq_some_iff.1 hport, List.singleton_append]
      exact .port (by rw [hp]; rfl)
  · intro hparts
    obtain ⟨ip, after, hinner, hbracket, hip, hend⟩ := hparts
    have hsplit := Str.splitOnce_eq_some_iff.2 ⟨hinner, hbracket⟩
    have hne : ip ≠ [] := by
      intro heq
      rw [heq] at hip
      exact absurd hip (by decide)
    have hlit := Bool.not_eq_true _ ▸ Option.isNone_eq_false_iff.2 hip
    simp only [parseLiteral, Checks.bind_ok_iff, Checks.okOr_ok_iff, Checks.reject_ok_iff,
      Prod.exists]
    cases hend with
    | none => exact ⟨ip, default, ⟨ip, [], hsplit, (), hlit, rfl⟩, hne⟩
    | port hp =>
      obtain ⟨n, hn⟩ := Option.isSome_iff_exists.1 hp
      refine ⟨ip, n, ⟨ip, _, hsplit, (), hlit, ?_⟩, hne⟩
      exact Checks.bind_ok_iff.2 ⟨n, Checks.okOr_ok_iff.2 hn, rfl⟩

theorem parseHostPort_ok_iff {url t : Str} {default : Nat} :
    (∃ hp, parseHostPort url default t = .ok hp) ↔ HostPort t := by
  have hparse : (∃ hp, parseHostPort url default t = .ok hp) ↔
      t ≠ [] ∧ ∃ hp, parseEither url default t = .ok hp ∧ hp.1 ≠ [] := by
    simp only [parseHostPort, Checks.bind_ok_iff, Checks.reject_ok_iff, Checks.pure_ok_iff]
    constructor
    · intro hok
      obtain ⟨_, _, hne, hp, hrun, _, hhost, _⟩ := hok
      exact ⟨hne, hp, hrun, hhost⟩
    · intro hok
      obtain ⟨hne, hp, hrun, hhost⟩ := hok
      exact ⟨hp, (), hne, hp, hrun, (), hhost, rfl⟩
  rw [hparse, parseEither]
  cases hb : t.stripStart ['['] with
  | some inner =>
    have ht : t = '[' :: inner := Str.stripStart_eq_some_iff.1 hb
    subst ht
    simp only
    rw [parseLiteral_ok_iff]
    constructor
    · intro hok
      obtain ⟨_, ip, after, hinner, hbracket, hip, hend⟩ := hok
      rw [hinner]
      exact .literal hbracket hip hend
    · intro h
      cases h with
      | bare hhead => simp at hhead
      | literal hbracket hip hend => exact ⟨by simp, _, _, rfl, hbracket, hip, hend⟩
  | none =>
    have hhead : t.head? ≠ some '[' := by
      intro heq
      obtain ⟨inner, rfl⟩ := List.head?_eq_some_iff.1 heq
      simp [Str.stripStart, Str.dropStart] at hb
    simp only
    constructor
    · intro h
      obtain ⟨hne, h⟩ := h
      exact .bare hhead ((parseBare_ok_iff hne).1 h)
    · intro h
      cases h with
      | bare _ hbare =>
        have hne : t ≠ [] := by
          cases hbare with
          | host hne => exact hne
          | colonHost => simp
          | hostPort => simp
        exact ⟨hne, (parseBare_ok_iff hne).2 hbare⟩
      | literal => simp at hhead

/-! ## What validation leaves to the parser -/

/-- The starts validation asks for. -/
def schemes : UpstreamProtocol → List Str
  | .doh | .odoh => ["https://".toList]
  | .doq => ["quic://".toList, "h3://".toList]
  | .plain => [[]]

/-- A URL the resolver can use: behind its scheme stands a host with an optional port, and behind
that nothing or a path. -/
def UsableUrl (protocol : UpstreamProtocol) (url : Str) : Prop :=
  ∃ scheme ∈ schemes protocol, ∃ hostPort path, url.trim = scheme ++ (hostPort ++ path) ∧
    '/' ∉ hostPort ∧ (path = [] ∨ path.head? = some '/') ∧ HostPort hostPort

theorem validateScheme_ok {texts : SchemeTexts} {protocol : UpstreamProtocol} {url : Str}
    (h : validateScheme texts protocol url = .ok ()) (hp : protocol ≠ .odoh) :
    ∃ scheme ∈ schemes protocol, ∃ rest, url.trim = scheme ++ rest := by
  have hkeep : ∀ {p : Str} {c d : Char}, Str.isWhitespace c = false → Str.isWhitespace d = false →
      url.startsWith (c :: p ++ [d]) = true → ∃ rest, url.trim = (c :: p ++ [d]) ++ rest := by
    intro p c d hc hd hs
    obtain ⟨rest, hrest⟩ := Str.startsWith_iff.1 hs
    obtain ⟨rest', htrim⟩ := Str.trim_append (p := p) hc hd rest
    refine ⟨rest', ?_⟩
    rw [hrest, List.append_assoc, List.append_assoc]
    exact htrim
  cases protocol with
  | doh =>
    simp only [validateScheme, Checks.reject_ok_iff, Bool.not_eq_true, Bool.not_eq_false'] at h
    exact ⟨_, List.mem_singleton_self _, hkeep (p := "ttps:/".toList) rfl rfl h⟩
  | doq =>
    simp only [validateScheme, Checks.reject_ok_iff, Bool.not_eq_true, Bool.not_eq_false',
      Bool.or_eq_true] at h
    rcases h with h | h
    · exact ⟨_, List.mem_cons_self, hkeep (p := "uic:/".toList) rfl rfl h⟩
    · exact ⟨_, List.mem_cons_of_mem _ (List.mem_singleton_self _),
        hkeep (p := "3:/".toList) rfl rfl h⟩
  | plain => exact ⟨[], List.mem_singleton_self _, url.trim, rfl⟩
  | odoh => exact absurd rfl hp

theorem trim_noScheme {texts : SchemeTexts} {url : Str}
    (h : validateScheme texts .plain url = .ok ()) : url.trim.splitOnceStr "://".toList = none := by
  simp only [validateScheme, Checks.reject_ok_iff] at h
  cases hs : url.trim.splitOnceStr "://".toList with
  | none => rfl
  | some p =>
    have hin : url.trim.containsStr "://".toList = true := by rw [Str.containsStr, hs]; rfl
    exact absurd (Str.containsStr_iff.2 ((Str.containsStr_iff.1 hin).trans (Str.trim_infix url))) h

/-- The parser takes a scheme off that validation asks for. -/
theorem splitScheme_eq {texts : SchemeTexts} {protocol : UpstreamProtocol} {url scheme rest : Str}
    (h : validateScheme texts protocol url = .ok ()) (hs : scheme ∈ schemes protocol)
    (ht : url.trim = scheme ++ rest) : ∃ name, splitScheme url.trim protocol = .ok (name, rest) := by
  cases protocol with
  | doh | odoh =>
    rw [List.mem_singleton.1 hs] at ht
    rw [ht]
    exact ⟨_, rfl⟩
  | doq =>
    rw [ht]
    rcases List.mem_cons.1 hs with rfl | hs
    · exact ⟨_, rfl⟩
    · rw [List.mem_singleton.1 hs]
      exact ⟨_, rfl⟩
  | plain =>
    rw [List.mem_singleton.1 hs, List.nil_append] at ht
    rw [splitScheme, trim_noScheme h, ← ht]
    exact ⟨_, rfl⟩

theorem takeWhile_hostPort {hostPort path : Str} (h : '/' ∉ hostPort)
    (hpath : path = [] ∨ path.head? = some '/') :
    (hostPort ++ path).takeWhile (fun c => !(c == '/')) = hostPort := by
  rw [List.takeWhile_append_of_pos]
  · rcases hpath with rfl | hpath
    · simp
    · obtain ⟨tail, rfl⟩ := List.head?_eq_some_iff.1 hpath
      simp
  · intro c hc
    have : c ≠ '/' := by
      rintro rfl
      exact h hc
    simpa using this

theorem parseUpstreamUrl_of_split {url name rest : Str} {protocol : UpstreamProtocol}
    (h : splitScheme url.trim protocol = .ok (name, rest)) :
    (∃ p, parseUpstreamUrl url protocol = .ok p) ↔
      HostPort (rest.takeWhile fun c => !(c == '/')) := by
  rw [← Str.head_splitBy (· == '/'),
    ← @parseHostPort_ok_iff url.trim _ (defaultPort name protocol)]
  simp only [parseUpstreamUrl, h, Checks.bind_ok_iff, Checks.pure_ok_iff, Except.ok.injEq,
    exists_eq_left']
  constructor
  · intro hok
    obtain ⟨_, hp, hrun, _⟩ := hok
    exact ⟨hp, hrun⟩
  · intro hok
    obtain ⟨hp, hrun⟩ := hok
    exact ⟨_, hp, hrun, rfl⟩

/-- A URL with the scheme validation asks for parses exactly when it is usable. -/
theorem parseUpstreamUrl_ok_iff {texts : SchemeTexts} {protocol : UpstreamProtocol} {url : Str}
    (h : validateScheme texts protocol url = .ok ()) (hp : protocol ≠ .odoh) :
    (∃ p, parseUpstreamUrl url protocol = .ok p) ↔ UsableUrl protocol url := by
  constructor
  · intro hparse
    obtain ⟨scheme, hscheme, rest, hrest⟩ := validateScheme_ok h hp
    obtain ⟨name, hsplit⟩ := splitScheme_eq h hscheme hrest
    have hhost := (parseUpstreamUrl_of_split hsplit).1 hparse
    refine ⟨scheme, hscheme, _, rest.dropWhile fun c => !(c == '/'), ?_, ?_, ?_, hhost⟩
    · rw [List.takeWhile_append_dropWhile, hrest]
    · intro hc
      simpa using List.mem_takeWhile_imp hc
    · cases hd : rest.dropWhile fun c => !(c == '/') with
      | nil => exact .inl rfl
      | cons c cs =>
        have hhead := List.head_dropWhile_not (fun c => !(c == '/')) (l := rest) (by rw [hd]; simp)
        simp only [hd, List.head_cons, Bool.not_eq_false', beq_iff_eq] at hhead
        exact .inr (by rw [hhead]; rfl)
  · intro hparts
    obtain ⟨scheme, hscheme, hostPort, path, ht, hslash, hpath, hhost⟩ := hparts
    obtain ⟨name, hsplit⟩ := splitScheme_eq h hscheme ht
    rw [parseUpstreamUrl_of_split hsplit, takeWhile_hostPort hslash hpath]
    exact hhost

theorem buildResolverArm_ok_iff {texts : SchemeTexts} {label : Str} {resolvers : List Str}
    {protocol : UpstreamProtocol}
    (h : ∀ url ∈ resolvers, validateScheme texts protocol url = .ok ()) (hp : protocol ≠ .odoh) :
    (∃ arm, buildResolverArm label resolvers protocol = .ok arm) ↔
      ∃ url ∈ resolvers, UsableUrl protocol url := by
  simp only [buildResolverArm, Checks.seq_ok_iff, Checks.reject_ok_iff, Checks.pure_ok_iff,
    exists_and_left, exists_eq', and_true, List.filterMap_eq_nil_iff, not_forall]
  constructor
  · intro hok
    obtain ⟨url, hurl, hsome⟩ := hok
    obtain ⟨p, hparse⟩ := Option.ne_none_iff_exists'.1 hsome
    simp only [Checks.toOption_eq_some_iff, buildNameServers, Checks.bind_ok_iff] at hparse
    obtain ⟨p, hparse, -⟩ := hparse
    exact ⟨url, hurl, (parseUpstreamUrl_ok_iff (h url hurl) hp).1 ⟨p, hparse⟩⟩
  · intro hurls
    obtain ⟨url, hurl, husable⟩ := hurls
    obtain ⟨p, hparse⟩ := (parseUpstreamUrl_ok_iff (h url hurl) hp).2 husable
    refine ⟨url, hurl, Option.ne_none_iff_exists'.2 ⟨p, ?_⟩⟩
    simp only [Checks.toOption_eq_some_iff, buildNameServers, Checks.bind_ok_iff]
    exact ⟨p, hparse, (), Checks.reject_ok_iff.2 hp, rfl⟩

/-- The resolver of a validated config comes up exactly when every arm has a usable URL. -/
theorem buildArms_ok_iff {upstream : UpstreamConfig} (h : UpstreamPassed upstream) :
    (∃ arms, buildArms upstream = .ok arms) ↔
      (upstream.protocol ≠ .odoh → ∃ url ∈ upstream.resolvers, UsableUrl upstream.protocol url) ∧
      ∀ route ∈ upstream.routes, ∃ url ∈ route.resolvers, UsableUrl route.protocol url := by
  have hdefault : (∃ arm, buildDefaultArm upstream = .ok arm) ↔
      (upstream.protocol ≠ .odoh → ∃ url ∈ upstream.resolvers, UsableUrl upstream.protocol url) := by
    unfold buildDefaultArm
    by_cases hodoh : upstream.protocol = .odoh
    · simp [hodoh]
    · rw [if_neg hodoh, buildResolverArm_ok_iff h.scheme hodoh]
      exact ⟨fun hu _ => hu, fun hu => hu hodoh⟩
  have hroutes : (∃ arms, upstream.routes.mapM (fun r =>
        buildResolverArm r.zone.trim.toAsciiLowercase r.resolvers r.protocol) = .ok arms) ↔
      ∀ route ∈ upstream.routes, ∃ url ∈ route.resolvers, UsableUrl route.protocol url := by
    rw [Checks.exists_mapM_ok_iff]
    refine forall₂_congr fun route hroute => ?_
    obtain ⟨hodoh, idx, hscheme⟩ := h.routes route hroute
    exact buildResolverArm_ok_iff hscheme hodoh
  rw [← hdefault, ← hroutes]
  simp only [buildArms, Checks.bind_ok_iff, Checks.reject_ok_iff, Checks.pure_ok_iff]
  constructor
  · intro hok
    obtain ⟨_, _, _, arm, harm, arms, harms, _⟩ := hok
    exact ⟨⟨arm, harm⟩, arms, harms⟩
  · intro hparts
    obtain ⟨⟨arm, harm⟩, arms, harms⟩ := hparts
    exact ⟨_, (), h.nonempty, arm, harm, arms, harms, rfl⟩

end RustyDns.L3
